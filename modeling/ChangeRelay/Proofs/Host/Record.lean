/-
Answers that do not change, and records of the answers that a host gave. A host that writes down
its answers gives the same ones (`recorded_inStep`), so every law about all that the relay asks can
be stated on its record. As long as what is written down agrees with fixed answers, the host is in
step with the one that gives these answers whenever it is asked (`recorded_inStep_answers`): the
first answer that differs is on the record for good. So what is made of the host is then what is made of
the fixed answers (`value_of_allOf`).
-/
import ChangeRelay.Host.Registry
import ChangeRelay.Proofs.Host.InStep

namespace ChangeRelay

variable {σ α ρ : Type}

/-- An answer to every question of the relay. -/
structure Answers where
  openProjects : List ProjectId
  isDisposed : ProjectId → Bool
  findModule : ProjectId → Entry → Option SourceModule
  engineIfStarted : ProjectId → Option Engine
  isMetadata : Entry → Bool

namespace Answers

/-- The host that always gives these answers. -/
def host (a : Answers) : Host Unit where
  openProjects := pure a.openProjects
  isDisposed p := pure (a.isDisposed p)
  findModule p e := pure (a.findModule p e)
  engineIfStarted p := pure (a.engineIfStarted p)
  isMetadata e := pure (a.isMetadata e)

@[simp] theorem host_isDisposed (a : Answers) (p : ProjectId) :
    a.host.isDisposed p = pure (a.isDisposed p) := rfl

@[simp] theorem host_findModule (a : Answers) (p : ProjectId) (e : Entry) :
    a.host.findModule p e = pure (a.findModule p e) := rfl

/-- The module that owns an entry: that of the first project that is not disposed and has one. -/
def owner? (a : Answers) (e : Entry) (ps : List ProjectId) : Option SourceModule :=
  (ps.filter fun p => !a.isDisposed p).findSome? fun p => a.findModule p e

theorem owner?_host (a : Answers) (e : Entry) (ps : List ProjectId) :
    a.host.owner? e ps = pure (a.owner? e ps) := by
  induction ps with
  | nil => rfl
  | cons p ps ih =>
    rw [Host.owner?, host_isDisposed, pure_bind]
    cases hd : a.isDisposed p with
    | true => simpa [owner?, hd] using ih
    | false =>
      rw [host_findModule, pure_bind]
      cases hm : a.findModule p e with
      | none => simpa [owner?, hd, hm] using ih
      | some m => simp [owner?, hd, hm]

end Answers

/-! ## Records -/

/-- A question to a host with the answer it got. -/
inductive Reply where
  | openProjects (answer : List ProjectId)
  | isDisposed (p : ProjectId) (answer : Bool)
  | findModule (p : ProjectId) (e : Entry) (answer : Option SourceModule)
  | engineIfStarted (p : ProjectId) (answer : Option Engine)
  | isMetadata (e : Entry) (answer : Bool)
  deriving DecidableEq, Repr

/-- A reply gives one of the fixed answers. -/
def Reply.IsOf (a : Answers) : Reply → Prop
  | .openProjects answer => answer = a.openProjects
  | .isDisposed p answer => answer = a.isDisposed p
  | .findModule p e answer => answer = a.findModule p e
  | .engineIfStarted p answer => answer = a.engineIfStarted p
  | .isMetadata e answer => answer = a.isMetadata e

instance (a : Answers) : ∀ r : Reply, Decidable (r.IsOf a)
  | .openProjects _ => inferInstanceAs (Decidable (_ = _))
  | .isDisposed _ _ => inferInstanceAs (Decidable (_ = _))
  | .findModule _ _ _ => inferInstanceAs (Decidable (_ = _))
  | .engineIfStarted _ _ => inferInstanceAs (Decidable (_ = _))
  | .isMetadata _ _ => inferInstanceAs (Decidable (_ = _))

/-- Asks a question and writes the reply down. -/
def recording (x : StateM σ α) (reply : α → ρ) : StateM (σ × List ρ) α := fun s =>
  ((x.run s.1).1, (x.run s.1).2, s.2 ++ [reply (x.run s.1).1])

/-- The host that answers as another does and writes its replies down in some form. -/
def Host.recordedAs (h : Host σ) (form : Reply → ρ) : Host (σ × List ρ) where
  openProjects := recording h.openProjects fun answer => form (.openProjects answer)
  isDisposed p := recording (h.isDisposed p) fun answer => form (.isDisposed p answer)
  findModule p e := recording (h.findModule p e) fun answer => form (.findModule p e answer)
  engineIfStarted p := recording (h.engineIfStarted p) fun answer => form (.engineIfStarted p answer)
  isMetadata e := recording (h.isMetadata e) fun answer => form (.isMetadata e answer)

/-- The host that answers as another does and writes its replies down. -/
def Host.recorded (h : Host σ) : Host (σ × List Reply) := h.recordedAs id

/-- The host is in this state, whatever has been written down. -/
def SameHost (s : σ × List ρ) (t : σ) : Prop := s.1 = t

theorem recording_inStep (x : StateM σ α) (reply : α → ρ) :
    InStep SameHost (fun _ => False) (recording x reply) x :=
  ⟨fun _ _ h => .inr (h ▸ ⟨rfl, rfl⟩), fun _ h => h⟩

/-- Writing replies down changes none of them. -/
theorem recordedAs_inStep (h : Host σ) (form : Reply → ρ) :
    Host.InStep SameHost (fun _ => False) (h.recordedAs form) h :=
  ⟨fun p => recording_inStep (h.isDisposed p) fun answer => form (.isDisposed p answer),
    fun p e => recording_inStep (h.findModule p e) fun answer => form (.findModule p e answer),
    fun e => recording_inStep (h.isMetadata e) fun answer => form (.isMetadata e answer)⟩

theorem recorded_inStep (h : Host σ) : Host.InStep SameHost (fun _ => False) h.recorded h :=
  recordedAs_inStep h id

/-- All replies on a record are of fixed answers. -/
def AllOf (a : Answers) (replies : List Reply) : Prop := ∀ r ∈ replies, r.IsOf a

instance (a : Answers) (replies : List Reply) : Decidable (AllOf a replies) :=
  inferInstanceAs (Decidable (∀ r ∈ replies, r.IsOf a))

/-- A question whose answer is fixed: either it gets that answer, or the reply is none of the fixed
ones, and stays on the record. -/
theorem recording_inStep_pure (a : Answers) (x : StateM σ α) (reply : α → Reply) (v : α)
    (hv : ∀ w, (reply w).IsOf a → w = v) :
    InStep (fun s (_ : Unit) => AllOf a s.2) (fun s => ¬ AllOf a s.2) (recording x reply) (pure v) := by
  refine ⟨fun s t hs => ?_, fun s hs hall => hs fun r hr => hall r (List.mem_append_left _ hr)⟩
  by_cases hr : (reply (x.run s.1).1).IsOf a
  · refine .inr ⟨hv _ hr, fun r hmem => ?_⟩
    rcases List.mem_append.1 hmem with hmem | hmem
    · exact hs r hmem
    · rw [List.mem_singleton.1 hmem]; exact hr
  · exact .inl fun hall => hr (hall _ (List.mem_append_right _ (List.mem_singleton_self _)))

/-- A host is in step with fixed answers until its record shows another one. -/
theorem recorded_inStep_answers (h : Host σ) (a : Answers) :
    Host.InStep (fun s (_ : Unit) => AllOf a s.2) (fun s => ¬ AllOf a s.2) h.recorded a.host :=
  ⟨fun _ => recording_inStep_pure a _ _ _ fun _ h => h, fun _ _ => recording_inStep_pure a _ _ _ fun _ h => h,
    fun _ => recording_inStep_pure a _ _ _ fun _ h => h⟩

/-! ## All questions -/

/-- Two hosts answer in step all questions of a run. -/
structure Host.RunInStep {τ : Type} (R : σ → τ → Prop) (lost : σ → Prop) (h : Host σ) (h' : Host τ) : Prop where
  gathering : Host.InStep R lost h h'
  openProjects : ChangeRelay.InStep R lost h.openProjects h'.openProjects
  engine : ∀ p, ChangeRelay.InStep R lost (h.engineIfStarted p) (h'.engineIfStarted p)

theorem recorded_runInStep (h : Host σ) : h.recorded.RunInStep SameHost (fun _ => False) h :=
  ⟨recorded_inStep h, recording_inStep h.openProjects _, fun p => recording_inStep (h.engineIfStarted p) _⟩

theorem recorded_runInStep_answers (h : Host σ) (a : Answers) :
    h.recorded.RunInStep (fun s (_ : Unit) => AllOf a s.2) (fun s => ¬ AllOf a s.2) a.host :=
  ⟨recorded_inStep_answers h a, recording_inStep_pure a _ _ _ fun _ h => h,
    fun _ => recording_inStep_pure a _ _ _ fun _ h => h⟩

/-- What a computation that asks a host leads to, for a host whose replies are all of fixed answers, is what it
leads to with these answers. -/
theorem value_of_allOf {α : Type} (f : ∀ {σ : Type}, Host σ → StateM σ α)
    (hf : ∀ {σ τ : Type} {R : σ → τ → Prop} {lost : σ → Prop} {h : Host σ} {h' : Host τ},
      h.RunInStep R lost h' → InStep R lost (f h) (f h'))
    {h : Host σ} {s : σ} {a : Answers} (still : AllOf a ((f h.recorded).run (s, [])).2.2) :
    ((f h).run s).1 = ((f a.host).run ()).1 := by
  rw [← (hf (recorded_runInStep h)).value_eq (s := (s, [])) rfl]
  rcases (hf (recorded_runInStep_answers h a)).together (s, []) () (fun r hr => absurd hr List.not_mem_nil)
    with hl | ⟨hv, -⟩
  · exact absurd still hl
  · exact hv

/-! ## A registry that stays as it is -/

/-- A registry of one open project that has one module, and an engine that has been started. -/
def Registry.single (metadata : MetadataRules) (p : ProjectId) (id : ModuleId) (contentRoot : Path)
    (e : Engine) : Registry :=
  ⟨metadata, [(p, ⟨[⟨id, p, contentRoot⟩], some e, false⟩)]⟩

/-- The registry of one module `/w`, with the pattern `**/*.iml` for metadata. -/
def Registry.sample : Registry :=
  .single ⟨[⟨[.directories, .run, .char '.', .char 'i', .char 'm', .char 'l']⟩]⟩ ⟨"p"⟩ ⟨"m"⟩ ⟨[47, 119]⟩ ⟨"e"⟩

/-- The answers of a registry. -/
def Registry.answers (r : Registry) : Answers where
  openProjects := r.openProjects
  isDisposed := r.isDisposed
  findModule p e := r.findModule p e.path
  engineIfStarted := r.engineIfStarted
  isMetadata e := r.isMetadata e.path

theorem inStep_of_run {τ : Type} {R : σ → τ → Prop} {x : StateM σ α} {v : α}
    (hx : ∀ s t, R s t → x.run s = (v, s)) :
    InStep R (fun _ => False) x (pure v) :=
  ⟨fun s t h => .inr (by rw [hx s t h]; exact ⟨rfl, h⟩), fun _ h => h⟩

/-- A registry gives the same answers whenever it is asked. -/
theorem registry_inStep (r : Registry) :
    Host.InStep (fun s (_ : Unit) => s = r) (fun _ => False) Registry.host r.answers.host :=
  ⟨fun _ => inStep_of_run fun _ _ h => h ▸ rfl, fun _ _ => inStep_of_run fun _ _ h => h ▸ rfl,
    fun _ => inStep_of_run fun _ _ h => h ▸ rfl⟩

end ChangeRelay
