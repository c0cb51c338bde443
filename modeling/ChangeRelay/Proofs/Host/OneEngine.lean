/-
Hosts that differ in the engine of one project. They answer in step whatever else they are asked
(`Host.AgreeBut`). Two registries do whose projects are the same but for this engine, and they
go on doing so when a project is disposed while they are asked (`watched_agreeBut`).
-/
import ChangeRelay.Host.Watched
import ChangeRelay.Proofs.Host.InStep
import Mathlib.Data.List.Forall2

namespace ChangeRelay

variable {σ τ : Type}

/-- Two hosts answer in step, but for the engine of one project. -/
structure Host.AgreeBut (q : ProjectId) (R : σ → τ → Prop) (h : Host σ) (h' : Host τ) : Prop where
  gathering : Host.InStep R (fun _ => False) h h'
  openProjects : ChangeRelay.InStep R (fun _ => False) h.openProjects h'.openProjects
  engine : ∀ p, p ≠ q →
    ChangeRelay.InStep R (fun _ => False) (h.engineIfStarted p) (h'.engineIfStarted p)
  /-- The answers may differ, but the states after them are related. -/
  moves : ∀ s t, R s t → R ((h.engineIfStarted q).run s).2 ((h'.engineIfStarted q).run t).2

/-! ## Registries -/

/-- Two rows of a registry are for the same project, with the same modules, and only the engine of `q`
may differ. -/
structure SameRow (q : ProjectId) (e e' : ProjectId × Project) : Prop where
  key : e.1 = e'.1
  modules : e.2.modules = e'.2.modules
  disposed : e.2.disposed = e'.2.disposed
  engine : e.1 ≠ q → e.2.engine = e'.2.engine

/-- Two registries are the same, but for the engine of one project. -/
structure Registry.SameBut (q : ProjectId) (r r' : Registry) : Prop where
  metadata : r.metadata = r'.metadata
  projects : List.Forall₂ (SameRow q) r.projects r'.projects

namespace Registry.SameBut

variable {q : ProjectId} {r r' : Registry} (h : r.SameBut q r')
include h

/-- A project is in both registries, with all but its engine the same, or in none. -/
theorem get? (p : ProjectId) : (r.get? p = none ∧ r'.get? p = none) ∨
    ∃ s s', r.get? p = some s ∧ r'.get? p = some s' ∧ SameRow q (p, s) (p, s') := by
  obtain ⟨_, es⟩ := r
  obtain ⟨_, es'⟩ := r'
  have hps : List.Forall₂ (SameRow q) es es' := h.projects
  clear h
  unfold Registry.get?
  induction hps with
  | nil => exact .inl ⟨rfl, rfl⟩
  | @cons e e' es es' he _ ih =>
    rw [List.find?_cons, List.find?_cons]
    by_cases hp : e.1 = p
    · subst hp
      rw [← he.key, beq_self_eq_true]
      exact .inr ⟨e.2, e'.2, rfl, rfl, rfl, he.modules, he.disposed, he.engine⟩
    · rw [← he.key, beq_eq_false_iff_ne.2 hp]
      exact ih

theorem openProjects : r.openProjects = r'.openProjects := by
  have kept : List.Forall₂ (SameRow q) (r.projects.filter fun e => !e.2.disposed)
      (r'.projects.filter fun e => !e.2.disposed) :=
    List.rel_filter (fun e e' he => iff_of_eq (congrArg (fun b => (!b) = true) he.disposed)) h.projects
  rw [Registry.openProjects, Registry.openProjects, ← List.forall₂_eq_eq_eq, List.forall₂_map_left_iff,
    List.forall₂_map_right_iff]
  exact kept.imp fun e e' he => he.key

theorem isDisposed (p : ProjectId) : r.isDisposed p = r'.isDisposed p := by
  unfold Registry.isDisposed
  rcases h.get? p with ⟨hn, hn'⟩ | ⟨s, s', hs, hs', same⟩
  · rw [hn, hn']
  · rw [hs, hs']; exact same.disposed

theorem findModule (p : ProjectId) (path : Path) : r.findModule p path = r'.findModule p path := by
  unfold Registry.findModule
  rcases h.get? p with ⟨hn, hn'⟩ | ⟨s, s', hs, hs', same⟩
  · rw [hn, hn']
  · have hm : s.modules = s'.modules := same.modules
    rw [hs, hs']; simp only [hm]

theorem engineIfStarted {p : ProjectId} (hp : p ≠ q) : r.engineIfStarted p = r'.engineIfStarted p := by
  unfold Registry.engineIfStarted
  rcases h.get? p with ⟨hn, hn'⟩ | ⟨s, s', hs, hs', same⟩
  · rw [hn, hn']
  · have hd : s.disposed = s'.disposed := same.disposed
    have he : s.engine = s'.engine := same.engine hp
    rw [hs, hs']; simp only [hd, he]

theorem dispose (p : ProjectId) : (r.dispose p).SameBut q (r'.dispose p) := by
  refine ⟨h.metadata, List.forall₂_map_left_iff.2 (List.forall₂_map_right_iff.2 ?_)⟩
  refine h.projects.imp fun e e' he => ?_
  rw [← he.key]
  split
  · exact ⟨rfl, he.modules, rfl, he.engine⟩
  · exact he

end Registry.SameBut

/-! ## Registries under watch -/

/-- Two registries under watch are the same, but for the engine of one project. -/
structure WatchedRegistry.SameBut (q : ProjectId) (w w' : WatchedRegistry) : Prop where
  registry : w.registry.SameBut q w'.registry
  checks : w.checks = w'.checks
  lookups : w.lookups = w'.lookups
  closing : w.closing = w'.closing
  claim : w.claim = w'.claim

namespace WatchedRegistry

variable {q : ProjectId} {w w' : WatchedRegistry}

theorem SameBut.countCheck (h : w.SameBut q w') : w.countCheck.SameBut q w'.countCheck := by
  obtain ⟨hr, hc, hl, hx, hm⟩ := h
  unfold WatchedRegistry.countCheck
  rw [← hc, ← hx]
  cases w.closing with
  | none => exact ⟨hr, rfl, hl, rfl, hm⟩
  | some at_ =>
    by_cases hn : at_.1 ≤ w.checks + 1
    · simp only [if_pos hn]; exact ⟨hr.dispose _, rfl, hl, rfl, hm⟩
    · simp only [if_neg hn]; exact ⟨hr, rfl, hl, rfl, hm⟩

theorem SameBut.countLookup (h : w.SameBut q w') : w.countLookup.SameBut q w'.countLookup :=
  ⟨h.registry, h.checks, congrArg (· + 1) h.lookups, h.closing, h.claim⟩

theorem SameBut.findModule (h : w.SameBut q w') (p : ProjectId) (path : Path) :
    w.findModule p path = w'.findModule p path := by
  unfold WatchedRegistry.findModule
  rw [← h.claim, h.registry.findModule]

/-- Registries under watch that are the same but for one engine agree on all but this engine, also when
a project is disposed while they are asked. -/
theorem watched_agreeBut (q : ProjectId) : host.AgreeBut q (SameBut q) host where
  gathering :=
    { isDisposed := fun p =>
        ⟨fun _ _ h => .inr ⟨h.countCheck.registry.isDisposed p, h.countCheck⟩, fun _ h => h⟩
      findModule := fun p e => ⟨fun _ _ h => .inr ⟨h.findModule p e.path, h⟩, fun _ h => h⟩
      isMetadata := fun e => ⟨fun _ _ h => .inr
        ⟨congrArg (fun rules : MetadataRules => rules.covers e.path) h.registry.metadata, h.countLookup⟩,
        fun _ h => h⟩ }
  openProjects := ⟨fun _ _ h => .inr ⟨h.registry.openProjects, h⟩, fun _ h => h⟩
  engine _ hp := ⟨fun _ _ h => .inr ⟨h.registry.engineIfStarted hp, h⟩, fun _ h => h⟩
  moves _ _ h := h

end WatchedRegistry

end ChangeRelay
