/-
Which module of a registry owns a path. The projects of a list are asked in their order, each once, up to
the first that claims the path (`Registry.owner?_run`). In that project the owner is the module with the
deepest content root: the content roots that contain one path lie within each other, so the deepest
of them lies within all others (`OwnsAmong`), and of equal roots that of the module added last counts.
-/
import ChangeRelay.Proofs.Host.History
import ChangeRelay.Proofs.Host.Record
import ChangeRelay.Proofs.Path.Within

namespace ChangeRelay

variable {ms : List SourceModule} {m n : SourceModule} {path : Path}

/-! ## The deepest of the modules that contain a path -/

/-- Of two modules that contain a path, one has its content root within that of the other. -/
theorem SourceModule.startsWith_of_depth_le (hm : m.contains path = true) (hn : n.contains path = true)
    (hle : n.depth ≤ m.depth) : m.contentRoot.startsWith n.contentRoot = true := by
  unfold SourceModule.contains at hm hn
  rw [Path.startsWith_iff] at hm hn ⊢
  exact List.prefix_of_prefix_length_le hn hm hle

theorem SourceModule.contains_of_same (hsame : n.contentRoot.Same m.contentRoot)
    (hm : m.contains path = true) : n.contains path = true := by
  unfold SourceModule.contains at hm ⊢
  rw [Path.startsWith_iff] at hm ⊢
  exact hsame ▸ hm

/-- A module owns a path among others: it contains the path, its content root lies within that of every
module that does, and no module with the same root was added after it. -/
structure OwnsAmong (ms : List SourceModule) (path : Path) (m : SourceModule) : Prop where
  contains : m.contains path = true
  deepest : ∀ n ∈ ms, n.contains path = true → m.contentRoot.startsWith n.contentRoot = true
  latest : ∃ before after, ms = before ++ m :: after ∧ ∀ n ∈ after, ¬ n.contentRoot.Same m.contentRoot

namespace Registry

theorem deepest?_eq_none_iff : deepest? ms = none ↔ ms = [] := by
  cases ms with
  | nil => simp [deepest?]
  | cons n ms =>
    unfold deepest?
    split
    · simp
    · split <;> simp

/-- The deepest module stands behind none that is deeper, and before none that is as deep. -/
theorem deepest?_split (h : deepest? ms = some m) :
    ∃ before after, ms = before ++ m :: after ∧ (∀ n ∈ before, n.depth ≤ m.depth) ∧
      ∀ n ∈ after, n.depth < m.depth := by
  induction ms generalizing m with
  | nil => simp [deepest?] at h
  | cons n ms ih =>
    unfold deepest? at h
    cases hd : deepest? ms with
    | none =>
      rw [hd] at h
      cases h
      obtain rfl := deepest?_eq_none_iff.1 hd
      exact ⟨[], [], rfl, by simp, by simp⟩
    | some o =>
      rw [hd] at h
      dsimp only at h
      obtain ⟨before, after, rfl, hbefore, hafter⟩ := ih hd
      split at h
      · rename_i hlt
        cases h
        refine ⟨[], before ++ o :: after, rfl, by simp, fun k hk => ?_⟩
        rcases List.mem_append.1 hk with hk | hk
        · have := hbefore k hk
          omega
        · rcases List.mem_cons.1 hk with rfl | hk
          · exact hlt
          · have := hafter k hk
            omega
      · rename_i hlt
        cases h
        refine ⟨n :: before, after, rfl, fun k hk => ?_, hafter⟩
        rcases List.mem_cons.1 hk with rfl | hk
        · omega
        · exact hbefore k hk

theorem ownsAmong_of_deepest? (h : deepest? (ms.filter (·.contains path)) = some m) :
    OwnsAmong ms path m := by
  have hm : m.contains path = true := (List.mem_filter.1 (mem_of_deepest? h)).2
  obtain ⟨before, after, hsplit, hbefore, hafter⟩ := deepest?_split h
  refine ⟨hm, fun n hn hcontains => ?_, ?_⟩
  · have hmem : n ∈ before ++ m :: after := hsplit ▸ List.mem_filter.2 ⟨hn, hcontains⟩
    apply SourceModule.startsWith_of_depth_le hm hcontains
    rcases List.mem_append.1 hmem with hmem | hmem
    · exact hbefore n hmem
    · rcases List.mem_cons.1 hmem with rfl | hmem
      · exact Nat.le_refl _
      · exact Nat.le_of_lt (hafter n hmem)
  · obtain ⟨front, back, rfl, -, hback⟩ := List.filter_eq_append_iff.1 hsplit
    obtain ⟨between, rest, rfl, -, -, rfl⟩ := List.filter_eq_cons_iff.1 hback
    refine ⟨front ++ between, rest, by simp, fun n hn hsame => ?_⟩
    -- a later module with this root contains the path too, and would not be less deep
    have hlt : n.depth < m.depth :=
      hafter n (List.mem_filter.2 ⟨hn, SourceModule.contains_of_same hsame hm⟩)
    have heq : n.depth = m.depth := congrArg List.length hsame
    omega

/-! ## The first project that claims a path -/

variable {r : Registry} {h : History} {p : ProjectId} {e : Entry}

/-- A project claims a path: it is not disposed, and a module was added to it that contains the path. -/
def Claims (r : Registry) (h : History) (path : Path) (p : ProjectId) : Prop :=
  r.isDisposed p = false ∧ ∃ m ∈ h.modules p, m.contains path = true

theorem Reflects.findModule_eq (hr : r.Reflects h) (hopen : r.isDisposed p = false) :
    r.findModule p path = deepest? ((h.modules p).filter (·.contains path)) := by
  unfold Registry.isDisposed at hopen
  unfold Registry.findModule
  rw [hr.get?, History.project?] at *
  split at hopen
  · cases hopen
  · rename_i s hs
    split at hs
    · cases hs
      rfl
    · cases hs

theorem Reflects.claims_iff (hr : r.Reflects h) (hopen : r.isDisposed p = false) :
    r.Claims h path p ↔ r.findModule p path ≠ none := by
  unfold Claims
  rw [hr.findModule_eq hopen, Ne, deepest?_eq_none_iff, List.filter_eq_nil_iff]
  simp [hopen]

theorem Reflects.ownsAmong (hr : r.Reflects h) (hopen : r.isDisposed p = false)
    (hfind : r.findModule p path = some m) : m.project = p ∧ OwnsAmong (h.modules p) path m := by
  refine ⟨(hr.findModule hfind).2, ?_⟩
  rw [hr.findModule_eq hopen] at hfind
  exact ownsAmong_of_deepest? hfind

end Registry

/-- The project about whose disposal a reply is. -/
def Reply.disposalOf? : Reply → Option ProjectId
  | .isDisposed p _ => some p
  | _ => none

/-- The projects whose disposal was asked about, in the order of the questions. -/
def disposalsAsked (replies : List Reply) : List ProjectId := replies.filterMap Reply.disposalOf?

namespace Registry

variable {r : Registry} {h : History} {e : Entry}

/-- What comes of the search for an owner: the first project that claims the path has it, and none
after that project is asked. -/
def Searched (r : Registry) (h : History) (path : Path) (ps : List ProjectId)
    (m? : Option SourceModule) (asked : List ProjectId) : Prop :=
  match m? with
  | none => (∀ p ∈ ps, ¬ r.Claims h path p) ∧ asked = ps
  | some m => ∃ before after, ps = before ++ m.project :: after ∧
      (∀ p ∈ before, ¬ r.Claims h path p) ∧ r.Claims h path m.project ∧
      OwnsAmong (h.modules m.project) path m ∧ asked = before ++ [m.project]

theorem Searched.cons {ps asked : List ProjectId} {m? : Option SourceModule} {p : ProjectId}
    (hp : ¬ r.Claims h path p) (hs : r.Searched h path ps m? asked) :
    r.Searched h path (p :: ps) m? (p :: asked) := by
  cases m? with
  | none =>
    obtain ⟨hnone, rfl⟩ := hs
    exact ⟨List.forall_mem_cons.2 ⟨hp, hnone⟩, rfl⟩
  | some m =>
    obtain ⟨before, after, rfl, hbefore, hclaims, howns, rfl⟩ := hs
    exact ⟨p :: before, after, rfl, List.forall_mem_cons.2 ⟨hp, hbefore⟩, hclaims, howns, rfl⟩

/-- The search for an owner over a registry whose replies are written down. -/
theorem owner?_run (hr : r.Reflects h) (e : Entry) (ps : List ProjectId) (log : List Reply) :
    ∃ m? own, (host.recorded.owner? e ps).run (r, log) = (m?, r, log ++ own) ∧
      r.Searched h e.path ps m? (disposalsAsked own) := by
  induction ps generalizing log with
  | nil => exact ⟨none, [], by rw [List.append_nil]; rfl, by simp, rfl⟩
  | cons p ps ih =>
    have hasked : (host.recorded.isDisposed p).run (r, log) =
        (r.isDisposed p, r, log ++ [.isDisposed p (r.isDisposed p)]) := rfl
    rw [Host.owner?, run_bind, hasked]
    dsimp only
    cases hd : r.isDisposed p with
    | true =>
      have hno : ¬ r.Claims h e.path p := fun hc => by rw [hc.1] at hd; cases hd
      obtain ⟨m?, own, hrun, hsearched⟩ := ih (log ++ [.isDisposed p true])
      refine ⟨m?, .isDisposed p true :: own, ?_, hsearched.cons hno⟩
      rw [if_pos rfl, hrun, List.append_assoc, List.singleton_append]
    | false =>
      have hfound : (host.recorded.findModule p e).run (r, log ++ [.isDisposed p false]) =
          (r.findModule p e.path, r,
            log ++ [.isDisposed p false] ++ [.findModule p e (r.findModule p e.path)]) := rfl
      rw [if_neg Bool.false_ne_true, run_bind, hfound]
      dsimp only
      cases hm : r.findModule p e.path with
      | none =>
        have hno : ¬ r.Claims h e.path p := fun hc => (hr.claims_iff hd).1 hc hm
        obtain ⟨m?, own, hrun, hsearched⟩ := ih (log ++ [.isDisposed p false] ++ [.findModule p e none])
        refine ⟨m?, .isDisposed p false :: .findModule p e none :: own, ?_, hsearched.cons hno⟩
        rw [hrun]
        simp
      | some m =>
        obtain ⟨hproject, howns⟩ := hr.ownsAmong hd hm
        subst hproject
        have hclaims : r.Claims h e.path m.project := (hr.claims_iff hd).2 (by simp [hm])
        refine ⟨some m, [.isDisposed m.project false, .findModule m.project e (some m)], ?_,
          [], ps, rfl, by simp, hclaims, howns, rfl⟩
        rw [List.append_assoc]
        rfl

/-- The owner of an entry among the projects of a list, whatever has been done to the registry. There is
one if some project claims the path; it is a module of the first that does, the deepest that contains the
path and of those with its root the last; and the projects up to that one, or all if none claims the
path, have been asked once each whether they are disposed. -/
theorem owner?_deepest (rules : MetadataRules) (h : History) (e : Entry) (ps : List ProjectId) :
    let r := (empty rules).performAll h
    let owner? := ((host.owner? e ps).run r).1
    let asked := disposalsAsked ((host.recorded.owner? e ps).run (r, [])).2.2
    (owner?.isSome ↔ ∃ p ∈ ps, r.Claims h e.path p) ∧ (owner? = none → asked = ps) ∧
    ∀ m, owner? = some m → ∃ before after, ps = before ++ m.project :: after ∧
      (∀ p ∈ before, ¬ r.Claims h e.path p) ∧ r.Claims h e.path m.project ∧
      OwnsAmong (h.modules m.project) e.path m ∧ asked = before ++ [m.project] := by
  intro r owner? asked
  have hr : r.Reflects h := by
    have := (empty_reflects rules).performAll h
    rwa [List.nil_append] at this
  obtain ⟨m?, own, hrun, hsearched⟩ := owner?_run hr e ps []
  have howner : owner? = m? := by
    have hvalue := (owner?_inStep (recorded_inStep host) e ps).value_eq (s := (r, [])) (t := r) rfl
    rw [hrun] at hvalue
    exact hvalue.symm
  have hasked : asked = disposalsAsked own := by
    show disposalsAsked ((host.recorded.owner? e ps).run (r, [])).2.2 = _
    rw [hrun, List.nil_append]
  rw [howner, hasked]
  cases m? with
  | none =>
    obtain ⟨hnone, hall⟩ := hsearched
    refine ⟨?_, fun _ => hall, by simp⟩
    simpa using hnone
  | some m =>
    refine ⟨?_, by simp, ?_⟩
    · obtain ⟨before, after, hps, -, hclaims, -⟩ := hsearched
      simp only [Option.isSome_some, true_iff]
      exact ⟨m.project, by simp [hps], hclaims⟩
    · rintro n hn
      cases hn
      exact hsearched

end Registry
end ChangeRelay
