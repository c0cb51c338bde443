/-
What a registry knows is what has happened to it. Of each project it is the life that counts: what has
happened since the project was opened for the first time after it was last closed (`History.life`). From it
the modules of the project and its engine can be read off, and the projects stand in the order in
which their lives began. Every operation keeps this (`Registry.Reflects`), and one on a project changes
nothing that is told of the others (`Registry.perform_tellsAlike`).
-/
import ChangeRelay.Host.Registry
import Mathlib.Data.List.DropRight

namespace ChangeRelay

/-! ## Histories -/

namespace Registry

/-- What may be done to a registry. -/
inductive Operation where
  | openProject (p : ProjectId)
  | dispose (p : ProjectId)
  | close (p : ProjectId)
  | addModule (p : ProjectId) (id : ModuleId) (contentRoot : Path)
  | startEngine (p : ProjectId) (e : Engine)
  | stopEngine (p : ProjectId)
  deriving DecidableEq, Repr

/-- The project that an operation is about. -/
def Operation.project : Operation → ProjectId
  | .openProject p | .dispose p | .close p | .addModule p _ _ | .startEngine p _ | .stopEngine p => p

/-- What an operation makes of what is known of its project. -/
def Operation.effect : Operation → Option Project → Option Project
  | .openProject _, none => some .fresh
  | .openProject _, some s => some { s with disposed := false }
  | .dispose _, s? => s?.map fun s => { s with disposed := true }
  | .close _, _ => none
  | .addModule p id contentRoot, s? => s?.map fun s => { s with modules := s.modules ++ [⟨id, p, contentRoot⟩] }
  | .startEngine _ e, s? => s?.map fun s => { s with engine := some e }
  | .stopEngine _, s? => s?.map fun s => { s with engine := none }

/-- Performs an operation; its answer is left out. -/
def perform (r : Registry) : Operation → Registry
  | .openProject p => r.openProject p
  | .dispose p => r.dispose p
  | .close p => r.close p
  | .addModule p id contentRoot => (r.addModule p id contentRoot).2
  | .startEngine p e => (r.startEngine p e).2
  | .stopEngine p => r.stopEngine p

/-- Performs some operations, one after the other. -/
def performAll (r : Registry) (h : List Operation) : Registry := h.foldl perform r

end Registry

/-- What has happened to a registry, the oldest operation first. -/
abbrev History := List Registry.Operation

namespace History

open Registry (Operation)

/-- What has happened since a project was last closed. -/
def sinceClosed (h : History) (p : ProjectId) : History := h.rtakeWhile fun o => decide (o ≠ .close p)

/-- A project has been opened after it was last closed. -/
def Registered (h : History) (p : ProjectId) : Prop := .openProject p ∈ h.sinceClosed p

instance (h : History) (p : ProjectId) : Decidable (h.Registered p) :=
  inferInstanceAs (Decidable (_ ∈ _))

/-- What has happened since a project was registered: since it was first opened after it was last
closed. Nothing, if it is not registered. -/
def life (h : History) (p : ProjectId) : History :=
  (h.sinceClosed p).dropWhile fun o => decide (o ≠ .openProject p)

/-- Where in a history a project was registered. -/
def registeredAt (h : History) (p : ProjectId) : Nat := h.length - (h.life p).length

/-- The last that was done to a project, of opening and disposing it. -/
def lastOpening? (h : History) (p : ProjectId) : Option Operation :=
  (h.filter fun o => decide (o = .openProject p ∨ o = .dispose p)).getLast?

/-- The module that an operation adds to a project. -/
def moduleAdded? (p : ProjectId) : Operation → Option SourceModule
  | .addModule q id contentRoot => if q = p then some ⟨id, p, contentRoot⟩ else none
  | _ => none

/-- What an operation makes of the engine of a project. -/
def engineSet? (p : ProjectId) : Operation → Option (Option Engine)
  | .startEngine q e => if q = p then some (some e) else none
  | .stopEngine q => if q = p then some none else none
  | _ => none

/-- The modules that have been added to a project since it was registered. -/
def modules (h : History) (p : ProjectId) : List SourceModule := (h.life p).filterMap (moduleAdded? p)

/-- The engine that was started last for a project since it was registered, unless it was stopped. -/
def engine? (h : History) (p : ProjectId) : Option Engine :=
  (((h.life p).filterMap (engineSet? p)).getLast?).join

variable {h : History} {p q : ProjectId} {o : Operation}

theorem registered_iff : h.Registered p ↔ h.life p ≠ [] := by
  unfold Registered life
  rw [Ne, List.dropWhile_eq_nil_iff]
  simp

/-- What one more operation makes of a life: to close the project ends it, to open it begins it, and
anything else goes on with it. -/
theorem life_append (h : History) (o : Operation) (p : ProjectId) :
    life (h ++ [o]) p =
      if o = .close p then []
      else if h.life p = [] then (if o = .openProject p then [o] else [])
      else h.life p ++ [o] := by
  unfold life sinceClosed
  rw [List.rtakeWhile_concat]
  by_cases hc : o = .close p
  · simp [hc]
  · rw [if_pos (by simpa using hc), if_neg hc, List.dropWhile_append]
    simp only [List.isEmpty_iff]
    split
    · by_cases ho : o = .openProject p <;> simp [ho]
    · rfl

theorem length_life_le (h : History) (p : ProjectId) : (h.life p).length ≤ h.length :=
  ((List.dropWhile_suffix _).trans (List.rtakeWhile_suffix _ _)).length_le

/-- An operation that neither closes a project nor registers it leaves its place. -/
theorem registeredAt_append (hp : h.Registered p) (hc : o ≠ .close p) :
    registeredAt (h ++ [o]) p = h.registeredAt p := by
  unfold registeredAt
  rw [life_append, if_neg hc, if_neg (registered_iff.1 hp), List.length_append, List.length_append]
  simp only [List.length_singleton, Nat.add_sub_add_right]

/-- A project that is registered by an operation stands at the end of the history so far. -/
theorem registeredAt_open (hp : ¬ h.Registered p) : registeredAt (h ++ [.openProject p]) p = h.length := by
  unfold registeredAt
  rw [registered_iff, not_not] at hp
  rw [life_append, if_neg (by simp), if_pos hp, if_pos rfl]
  simp

theorem registeredAt_lt (hp : h.Registered p) : h.registeredAt p < h.length := by
  have hlife : 0 < (h.life p).length := List.length_pos_iff.2 (registered_iff.1 hp)
  have hle := length_life_le h p
  unfold registeredAt
  omega

/-- What is known of a project after a history, if it is registered then. -/
def project? (h : History) (p : ProjectId) : Option Project :=
  if h.Registered p then some ⟨h.modules p, h.engine? p, decide (h.lastOpening? p ≠ some (.openProject p))⟩
  else none

theorem project?_append_of_ne (hp : o.project ≠ p) : project? (h ++ [o]) p = h.project? p := by
  have hclose : o ≠ .close p := fun ho => hp (by rw [ho]; rfl)
  have hopen : o ≠ .openProject p := fun ho => hp (by rw [ho]; rfl)
  have hdispose : o ≠ .dispose p := fun ho => hp (by rw [ho]; rfl)
  have hmodule : moduleAdded? p o = none := by
    cases o with
    | addModule q id root => exact if_neg hp
    | _ => rfl
  have hengine : engineSet? p o = none := by
    cases o with
    | startEngine q e => exact if_neg hp
    | stopEngine q => exact if_neg hp
    | _ => rfl
  unfold project? modules engine? lastOpening?
  simp only [registered_iff, life_append, if_neg hclose, if_neg hopen]
  by_cases hlife : h.life p = []
  · simp [hlife]
  · simp [hlife, hmodule, hengine, hopen, hdispose, List.filterMap_append, List.filter_append]

/-- What one more operation makes of what is known of a project: nothing if it is about another one. -/
theorem project?_append (h : History) (o : Operation) (p : ProjectId) :
    project? (h ++ [o]) p = if p = o.project then o.effect (h.project? p) else h.project? p := by
  by_cases hp : p = o.project
  · rw [if_pos hp]
    unfold project? modules engine? lastOpening?
    simp only [registered_iff, life_append]
    subst hp
    by_cases hlife : h.life o.project = []
    · cases o with
      | openProject p =>
        have hlife : h.life p = [] := hlife
        simp [hlife, Operation.project, Operation.effect, Project.fresh, moduleAdded?, engineSet?]
      | _ =>
        rw [Operation.project] at hlife
        simp [hlife, Operation.project, Operation.effect]
    · cases o with
      | close p => simp [Operation.project, Operation.effect]
      | _ =>
        -- the life goes on with the operation, and what is read off it with what it brings
        rw [Operation.project] at hlife
        simp [hlife, Operation.project, Operation.effect, moduleAdded?, engineSet?]
  · rw [if_neg hp]
    exact project?_append_of_ne fun h => hp h.symm

end History

namespace Registry

variable {r : Registry} {h : History} {p q : ProjectId} {o : Operation}

/-! ## What operations do to what is known -/

/-- The registered projects, in their order. -/
def names (r : Registry) : List ProjectId := r.projects.map (·.1)

theorem get?_isSome_iff : (r.get? p).isSome ↔ p ∈ r.names := by
  unfold get? names
  rw [Option.isSome_map, List.find?_isSome, List.mem_map]
  simp

theorem get?_cons (rules : MetadataRules) (e : ProjectId × Project) (es : List (ProjectId × Project)) :
    get? ⟨rules, e :: es⟩ q = if e.1 = q then some e.2 else get? ⟨rules, es⟩ q := by
  unfold get?
  rw [List.find?_cons]
  by_cases hq : e.1 = q
  · simp [hq]
  · simp [hq, beq_eq_false_iff_ne.2 hq]

theorem get?_update (r : Registry) (f : Project → Project) (p q : ProjectId) :
    (r.update p f).get? q = if q = p then (r.get? q).map f else r.get? q := by
  obtain ⟨rules, es⟩ := r
  induction es with
  | nil => simp [update, get?]
  | cons e es ih =>
    have hstep : update ⟨rules, e :: es⟩ p f =
        ⟨rules, (if e.1 == p then (e.1, f e.2) else e) :: (update ⟨rules, es⟩ p f).projects⟩ := rfl
    have ih : get? ⟨rules, (update ⟨rules, es⟩ p f).projects⟩ q = _ := ih
    rw [hstep, get?_cons, get?_cons, ih]
    by_cases hp : e.1 = p
    · subst hp
      by_cases hq : e.1 = q
      · simp [hq]
      · have hq' : ¬ q = e.1 := fun h => hq h.symm
        simp [hq, hq']
    · by_cases hq : e.1 = q
      · subst hq
        simp [hp]
      · simp [hp, hq]

theorem get?_append (rules : MetadataRules) (es : List (ProjectId × Project)) (e : ProjectId × Project) :
    get? ⟨rules, es ++ [e]⟩ q = (get? ⟨rules, es⟩ q).or (if e.1 = q then some e.2 else none) := by
  induction es with
  | nil => rw [List.nil_append, get?_cons]; rfl
  | cons e' es ih =>
    rw [List.cons_append, get?_cons, get?_cons, ih]
    split <;> rfl

theorem get?_close (r : Registry) (p q : ProjectId) :
    (r.close p).get? q = if q = p then none else r.get? q := by
  obtain ⟨rules, es⟩ := r
  induction es with
  | nil => simp [close, get?]
  | cons e es ih =>
    have ih : get? ⟨rules, es.filter fun e => !(e.1 == p)⟩ q = _ := ih
    show get? ⟨rules, (e :: es).filter fun e => !(e.1 == p)⟩ q = _
    rw [get?_cons, List.filter_cons]
    by_cases hp : e.1 = p
    · by_cases hq : q = p
      · simpa [hp, hq] using ih
      · have hq' : ¬ p = q := fun h => hq h.symm
        simpa [hp, hq, hq'] using ih
    · rw [if_pos (by simpa using hp), get?_cons, ih]
      by_cases hq : e.1 = q
      · subst hq
        simp [hp]
      · simp [hq]

theorem get?_of_unknown (f : Project → Project) (hp : r.get? p = none) :
    r.get? q = if q = p then (r.get? q).map f else r.get? q := by
  by_cases hq : q = p
  · subst hq
    simp [hp]
  · rw [if_neg hq]

/-- An operation has its effect on what is known of its project, and none on what is known of others. -/
theorem get?_perform (r : Registry) (o : Operation) (q : ProjectId) :
    (r.perform o).get? q = if q = o.project then o.effect (r.get? q) else r.get? q := by
  cases o with
  | openProject p =>
    show (r.openProject p).get? q = if q = p then _ else _
    unfold openProject
    cases hp : r.get? p with
    | some s =>
      rw [Option.isSome_some, if_pos rfl, get?_update]
      by_cases hq : q = p
      · subst hq
        simp [hp, Operation.effect]
      · simp [hq]
    | none =>
      rw [Option.isSome_none, if_neg Bool.false_ne_true, get?_append]
      by_cases hq : q = p
      · subst hq
        have hnone : get? ⟨r.metadata, r.projects⟩ q = none := hp
        simp [hnone, Operation.effect]
      · have hq' : ¬ p = q := fun h => hq h.symm
        simp [hq, hq']
  | dispose p => exact get?_update r _ p q
  | close p => exact get?_close r p q
  | addModule p id root =>
    show (r.addModule p id root).2.get? q = if q = p then _ else _
    unfold addModule
    cases hp : r.get? p with
    | some s => exact get?_update r _ p q
    | none => exact get?_of_unknown _ hp
  | startEngine p e =>
    show (r.startEngine p e).2.get? q = if q = p then _ else _
    unfold startEngine
    cases hp : r.get? p with
    | some s => exact get?_update r _ p q
    | none => exact get?_of_unknown _ hp
  | stopEngine p => exact get?_update r _ p q

theorem names_update (r : Registry) (f : Project → Project) (p : ProjectId) :
    (r.update p f).names = r.names := by
  unfold update names
  rw [List.map_map]
  refine List.map_congr_left fun e _ => ?_
  rw [Function.comp_apply]
  split <;> rfl

/-- The names after an operation: a project that is registered comes last, and one that is closed leaves
the others as they stand. -/
theorem names_perform (r : Registry) (o : Operation) :
    (r.perform o).names =
      match o with
      | .openProject p => if (r.get? p).isSome then r.names else r.names ++ [p]
      | .close p => r.names.filter fun q => !(q == p)
      | _ => r.names := by
  cases o with
  | openProject p =>
    show (r.openProject p).names = if (r.get? p).isSome then r.names else r.names ++ [p]
    unfold openProject
    by_cases hp : (r.get? p).isSome
    · rw [if_pos hp, if_pos hp]
      exact names_update r _ p
    · rw [if_neg hp, if_neg hp]
      exact List.map_append
  | dispose p => exact names_update r _ p
  | close p =>
    show (r.projects.filter fun e => !(e.1 == p)).map (·.1) = (r.projects.map (·.1)).filter fun q => !(q == p)
    rw [List.filter_map]
    rfl
  | addModule p id root =>
    show (r.addModule p id root).2.names = _
    unfold addModule
    split
    · exact names_update r _ p
    · rfl
  | startEngine p e =>
    show (r.startEngine p e).2.names = _
    unfold startEngine
    split
    · exact names_update r _ p
    · rfl
  | stopEngine p => exact names_update r _ p

/-! ## What a registry reflects -/

/-- A registry knows what its history says, and its projects stand in the order in which they were
registered. -/
structure Reflects (r : Registry) (h : History) : Prop where
  get? : ∀ p, r.get? p = h.project? p
  order : r.names.Pairwise fun p q => h.registeredAt p < h.registeredAt q

theorem empty_reflects (rules : MetadataRules) : (empty rules).Reflects [] :=
  ⟨fun _ => rfl, .nil⟩

theorem Reflects.mem_names (hr : r.Reflects h) : p ∈ r.names ↔ h.Registered p := by
  rw [← get?_isSome_iff, hr.get?, History.project?]
  split <;> simp [*]

theorem Reflects.perform (hr : r.Reflects h) (o : Operation) : (r.perform o).Reflects (h ++ [o]) := by
  refine ⟨fun p => ?_, ?_⟩
  · rw [get?_perform, hr.get?, History.project?_append]
  · -- the projects that stay registered keep their places, so their order is the old one
    have kept {ps : List ProjectId} (hps : ps.Sublist r.names) (hclose : ∀ p ∈ ps, o ≠ .close p) :
        ps.Pairwise fun p q => History.registeredAt (h ++ [o]) p < History.registeredAt (h ++ [o]) q := by
      refine (hr.order.sublist hps).imp_of_mem fun {p q} hp hq hlt => ?_
      rw [History.registeredAt_append (hr.mem_names.1 (hps.subset hp)) (hclose p hp),
        History.registeredAt_append (hr.mem_names.1 (hps.subset hq)) (hclose q hq)]
      exact hlt
    rw [names_perform]
    cases o with
    | openProject p =>
      have hold := kept (.refl _) (by simp)
      dsimp only
      split
      · exact hold
      · rename_i hp
        have hnew : ¬ h.Registered p := by rwa [← hr.mem_names, ← get?_isSome_iff]
        refine List.pairwise_append.2 ⟨hold, List.pairwise_singleton _ _, ?_⟩
        intro q hq p' hp'
        obtain rfl := List.mem_singleton.1 hp'
        have hq' : h.Registered q := hr.mem_names.1 hq
        rw [History.registeredAt_append hq' (by simp), History.registeredAt_open hnew]
        exact History.registeredAt_lt hq'
    | close p =>
      refine kept List.filter_sublist fun q hq hqp => ?_
      have hne : q ≠ p := by simpa using (List.mem_filter.1 hq).2
      cases hqp
      exact hne rfl
    | _ => exact kept (.refl _) (by simp)

theorem Reflects.performAll : ∀ (ops : List Operation) {r : Registry} {h : History}, r.Reflects h →
    (r.performAll ops).Reflects (h ++ ops)
  | [], _, h, hr => by rw [List.append_nil]; exact hr
  | o :: ops, r, h, hr => by
    have rest := Reflects.performAll ops (hr.perform o)
    rwa [List.append_assoc, List.singleton_append] at rest

/-! ## What is told -/

theorem mem_projects_iff {s : Project} (hr : r.names.Nodup) : (p, s) ∈ r.projects ↔ r.get? p = some s := by
  obtain ⟨rules, es⟩ := r
  induction es with
  | nil => simp [get?]
  | cons e es ih =>
    obtain ⟨hnot, hes⟩ : e.1 ∉ es.map (·.1) ∧ (es.map (·.1)).Nodup := List.nodup_cons.1 hr
    have ih : (p, s) ∈ es ↔ get? ⟨rules, es⟩ p = some s := ih hes
    rw [get?_cons, List.mem_cons, ih]
    by_cases hp : e.1 = p
    · subst hp
      -- the name does not come again
      have hnone : get? ⟨rules, es⟩ e.1 = none := by
        rw [← Option.not_isSome_iff_eq_none, get?_isSome_iff]
        exact hnot
      rw [if_pos rfl, hnone, Option.some.injEq]
      simp [Prod.ext_iff, eq_comm]
    · have hp' : ¬ (p, s) = e := fun h => hp (by rw [← h])
      simp [hp, hp']

namespace Reflects

variable (hr : r.Reflects h)
include hr

theorem nodup : r.names.Nodup :=
  hr.order.imp fun hlt heq => Nat.ne_of_lt hlt (congrArg h.registeredAt heq)

theorem mem_openProjects_iff_get? : p ∈ r.openProjects ↔ ∃ s, r.get? p = some s ∧ s.disposed = false := by
  unfold openProjects
  rw [List.mem_map]
  constructor
  · rintro ⟨⟨q, s⟩, hmem, rfl⟩
    obtain ⟨hmem, hs⟩ := List.mem_filter.1 hmem
    exact ⟨s, (mem_projects_iff hr.nodup).1 hmem, by simpa using hs⟩
  · rintro ⟨s, hs, hopen⟩
    exact ⟨(p, s), List.mem_filter.2 ⟨(mem_projects_iff hr.nodup).2 hs, by simp [hopen]⟩, rfl⟩

theorem mem_openProjects :
    p ∈ r.openProjects ↔ h.Registered p ∧ h.lastOpening? p = some (.openProject p) := by
  rw [hr.mem_openProjects_iff_get?, hr.get?, History.project?]
  split <;> simp [*]

theorem openProjects_order : r.openProjects.Pairwise fun p q => h.registeredAt p < h.registeredAt q :=
  hr.order.sublist (List.filter_sublist.map _)

theorem isDisposed : r.isDisposed p = true ↔ p ∉ r.openProjects := by
  rw [hr.mem_openProjects_iff_get?]
  unfold Registry.isDisposed
  cases r.get? p <;> simp

theorem engineIfStarted {e : Engine} :
    r.engineIfStarted p = some e ↔ p ∈ r.openProjects ∧ h.engine? p = some e := by
  rw [hr.mem_openProjects, Registry.engineIfStarted, hr.get?, History.project?]
  by_cases hp : h.Registered p
  · by_cases hlast : h.lastOpening? p = some (.openProject p) <;> simp [hp, hlast]
  · simp [hp]

end Reflects

theorem mem_of_deepest? : ∀ {ms : List SourceModule} {m : SourceModule}, deepest? ms = some m → m ∈ ms
  | n :: ms, m, hm => by
    unfold deepest? at hm
    cases hd : deepest? ms with
    | none =>
      rw [hd] at hm
      cases hm
      exact List.mem_cons_self
    | some o =>
      have ho : o ∈ ms := mem_of_deepest? hd
      rw [hd] at hm
      dsimp only at hm
      split at hm
      · cases hm; exact List.mem_cons_self
      · cases hm; exact List.mem_cons_of_mem _ ho

/-- A module that is found in a project has been added to it since it was registered. -/
theorem Reflects.findModule (hr : r.Reflects h) {path : Path} {m : SourceModule}
    (hm : r.findModule p path = some m) : m ∈ h.modules p ∧ m.project = p := by
  rw [Registry.findModule, hr.get?, History.project?] at hm
  split at hm
  · cases hm
  · rename_i s hs
    split at hs
    · cases hs
      have hmem : m ∈ h.modules p := (List.mem_filter.1 (mem_of_deepest? hm)).1
      refine ⟨hmem, ?_⟩
      obtain ⟨o, -, ho⟩ := List.mem_filterMap.1 hmem
      unfold History.moduleAdded? at ho
      split at ho
      · split at ho
        · cases ho; rfl
        · cases ho
      · cases ho
    · cases hs

/-! ## Other projects -/

/-- All that is told of a project is the same. -/
structure TellsAlike (q : ProjectId) (r r' : Registry) : Prop where
  isDisposed : r.isDisposed q = r'.isDisposed q
  findModule : ∀ path, r.findModule q path = r'.findModule q path
  engineIfStarted : r.engineIfStarted q = r'.engineIfStarted q
  addModule : ∀ id root, (r.addModule q id root).1 = (r'.addModule q id root).1
  startEngine : ∀ e, (r.startEngine q e).1 = (r'.startEngine q e).1

theorem perform_tellsAlike (r : Registry) {o : Operation} (hq : q ≠ o.project) :
    (r.perform o).TellsAlike q r := by
  have hget : (r.perform o).get? q = r.get? q := by rw [get?_perform, if_neg hq]
  constructor
  · rw [isDisposed, isDisposed, hget]
  · intro path
    rw [findModule, findModule, hget]
  · rw [engineIfStarted, engineIfStarted, hget]
  · intro id root
    rw [addModule, addModule, hget]
    split <;> rfl
  · intro e
    rw [startEngine, startEngine, hget]
    split <;> rfl

theorem openProjects_cons (rules : MetadataRules) (e : ProjectId × Project) (es : List (ProjectId × Project)) :
    openProjects ⟨rules, e :: es⟩ =
      if e.2.disposed then openProjects ⟨rules, es⟩ else e.1 :: openProjects ⟨rules, es⟩ := by
  unfold openProjects
  rw [List.filter_cons]
  cases e.2.disposed <;> rfl

theorem openProjects_update_of_ne (r : Registry) (f : Project → Project) (p : ProjectId) :
    ((r.update p f).openProjects.filter fun q => decide (q ≠ p)) =
      r.openProjects.filter fun q => decide (q ≠ p) := by
  obtain ⟨rules, es⟩ := r
  induction es with
  | nil => rfl
  | cons e es ih =>
    have hstep : update ⟨rules, e :: es⟩ p f =
        ⟨rules, (if e.1 == p then (e.1, f e.2) else e) :: (update ⟨rules, es⟩ p f).projects⟩ := rfl
    have ih : (openProjects ⟨rules, (update ⟨rules, es⟩ p f).projects⟩).filter _ = _ := ih
    rw [hstep, openProjects_cons, openProjects_cons]
    by_cases hp : e.1 = p
    · subst hp
      rw [beq_self_eq_true, if_pos rfl]
      cases e.2.disposed <;> cases (f e.2).disposed <;> simpa using ih
    · have hrow : (if e.1 == p then (e.1, f e.2) else e) = e := by simp [hp]
      rw [hrow]
      cases e.2.disposed
      · simpa [hp] using ih
      · simpa using ih

theorem openProjects_append_fresh (r : Registry) (p : ProjectId) :
    openProjects ⟨r.metadata, r.projects ++ [(p, .fresh)]⟩ = r.openProjects ++ [p] := by
  unfold openProjects
  rw [List.filter_append, List.map_append]
  rfl

theorem openProjects_close (r : Registry) (p : ProjectId) :
    (r.close p).openProjects = r.openProjects.filter fun q => decide (q ≠ p) := by
  unfold openProjects close
  rw [List.filter_map, List.filter_filter, List.filter_filter]
  refine congrArg (List.map _) (List.filter_congr fun e _ => ?_)
  by_cases hp : e.1 = p <;> simp [hp]

/-- An operation leaves the other open projects in their order. -/
theorem openProjects_perform (r : Registry) (o : Operation) :
    ((r.perform o).openProjects.filter fun q => decide (q ≠ o.project)) =
      r.openProjects.filter fun q => decide (q ≠ o.project) := by
  cases o with
  | openProject p =>
    show (r.openProject p).openProjects.filter _ = _
    unfold openProject
    split
    · exact openProjects_update_of_ne r _ p
    · rw [openProjects_append_fresh, List.filter_append]
      simp [Operation.project]
  | dispose p => exact openProjects_update_of_ne r _ p
  | close p =>
    show (r.close p).openProjects.filter _ = _
    rw [openProjects_close, List.filter_filter]
    refine List.filter_congr fun q _ => ?_
    by_cases hq : q = p <;> simp [hq, Operation.project]
  | addModule p id root =>
    show (r.addModule p id root).2.openProjects.filter _ = _
    unfold addModule
    split
    · exact openProjects_update_of_ne r _ p
    · rfl
  | startEngine p e =>
    show (r.startEngine p e).2.openProjects.filter _ = _
    unfold startEngine
    split
    · exact openProjects_update_of_ne r _ p
    · rfl
  | stopEngine p => exact openProjects_update_of_ne r _ p

/-- A project that is disposed and opened again stands where it stood. -/
theorem openProjects_revive (hr : r.Reflects h) (hp : p ∈ r.openProjects) :
    ((r.dispose p).openProject p).openProjects = r.openProjects := by
  obtain ⟨s, hs, hopen⟩ := hr.mem_openProjects_iff_get?.1 hp
  have hknown : ((r.dispose p).get? p).isSome := by
    rw [dispose, get?_update, hs]
    simp
  -- the row of the project is what it was, and so are all others
  have hsame : (r.projects.map fun e => if e.1 == p then (e.1, { e.2 with disposed := true }) else e).map
      (fun e => if e.1 == p then (e.1, { e.2 with disposed := false }) else e) = r.projects := by
    rw [List.map_map]
    refine (List.map_congr_left fun e he => ?_).trans (List.map_id _)
    rw [Function.comp_apply, id_eq]
    by_cases hep : e.1 = p
    · subst hep
      have hes : some e.2 = some s := ((mem_projects_iff hr.nodup).1 he).symm.trans hs
      have hdisposed : e.2.disposed = false := by
        rw [Option.some.inj hes]
        exact hopen
      simp [← hdisposed]
    · simp [hep]
  unfold openProject
  rw [if_pos hknown]
  exact congrArg (fun es => openProjects ⟨r.metadata, es⟩) hsame

/-- A project that is closed and opened again comes last. -/
theorem openProjects_reopen (r : Registry) (p : ProjectId) :
    ((r.close p).openProject p).openProjects = (r.openProjects.filter fun q => decide (q ≠ p)) ++ [p] := by
  have hunknown : ¬ ((r.close p).get? p).isSome := by
    rw [get?_close]
    simp
  unfold openProject
  rw [if_neg hunknown]
  refine (openProjects_append_fresh (r.close p) p).trans ?_
  rw [openProjects_close]

/-- What a registry tells after any operations is told by their history. -/
theorem told_by_history (rules : MetadataRules) (h : History) :
    let r := (empty rules).performAll h
    (∀ p, (r.get? p).isSome ↔ h.Registered p) ∧
    (∀ p, p ∈ r.openProjects ↔ h.Registered p ∧ h.lastOpening? p = some (.openProject p)) ∧
    r.openProjects.Nodup ∧ (r.openProjects.Pairwise fun p q => h.registeredAt p < h.registeredAt q) ∧
    (∀ p ∈ r.openProjects, ((r.dispose p).openProject p).openProjects = r.openProjects) ∧
    (∀ p, ((r.close p).openProject p).openProjects = (r.openProjects.filter fun q => decide (q ≠ p)) ++ [p]) ∧
    (∀ p, r.isDisposed p = true ↔ p ∉ r.openProjects) ∧
    (∀ p id root, (r.addModule p id root).1 = if h.Registered p then some ⟨id, p, root⟩ else none) ∧
    (∀ p e, (r.startEngine p e).1 = true ↔ h.Registered p) ∧
    (∀ p path m, r.findModule p path = some m → m ∈ h.modules p ∧ m.project = p) ∧
    (∀ p e, r.engineIfStarted p = some e ↔ p ∈ r.openProjects ∧ h.engine? p = some e) ∧
    ∀ o, (∀ q, q ≠ o.project → (r.perform o).TellsAlike q r) ∧
      ((r.perform o).openProjects.filter fun q => decide (q ≠ o.project)) =
        r.openProjects.filter fun q => decide (q ≠ o.project) := by
  intro r
  have hr : r.Reflects h := by
    have := (empty_reflects rules).performAll h
    rwa [List.nil_append] at this
  have hknown (p : ProjectId) : (r.get? p).isSome ↔ h.Registered p := get?_isSome_iff.trans hr.mem_names
  have hnodup : r.openProjects.Nodup := hr.nodup.sublist (List.filter_sublist.map _)
  refine ⟨hknown, fun p => hr.mem_openProjects, hnodup, hr.openProjects_order, fun p => openProjects_revive hr,
    openProjects_reopen r, fun p => hr.isDisposed, fun p id root => ?_, fun p e => ?_, fun p path m => hr.findModule,
    fun p e => hr.engineIfStarted, fun o => ⟨fun q => perform_tellsAlike r, openProjects_perform r o⟩⟩
  · rw [addModule, apply_ite Prod.fst]
    simp only [hknown]
  · rw [startEngine, apply_ite Prod.fst, ← hknown]
    split <;> simp [*]

end Registry
end ChangeRelay
