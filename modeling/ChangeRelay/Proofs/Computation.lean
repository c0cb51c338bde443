/-
Computations with a state, compared and judged without running them. Two computations keep step when,
from related states, they give the same value and end in related states, unless the first has been
lost on the way; what is lost stays lost. A property that a computation gives holds of its value
whatever state it starts from. What is made of computations that keep step keeps step, and likewise
for what they give.
-/

namespace ChangeRelay

variable {σ τ α β : Type} {R : σ → τ → Prop} {lost : σ → Prop}

/-- A computation and then another is the other on the value and the state of the first. -/
theorem run_bind (x : StateM σ α) (f : α → StateM σ β) (s : σ) :
    (x >>= f).run s = (f (x.run s).1).run (x.run s).2 := rfl

/-- From related states two computations give the same value and end in related states, unless the
first is lost. -/
structure InStep (R : σ → τ → Prop) (lost : σ → Prop) (x : StateM σ α) (y : StateM τ α) : Prop where
  together : ∀ s t, R s t →
    lost (x.run s).2 ∨ ((x.run s).1 = (y.run t).1 ∧ R (x.run s).2 (y.run t).2)
  stays : ∀ s, lost s → lost (x.run s).2

namespace InStep

theorem pure (a : α) : InStep R lost (pure a) (pure a) :=
  ⟨fun _ _ h => .inr ⟨rfl, h⟩, fun _ h => h⟩

theorem bind {x : StateM σ α} {y : StateM τ α} {f : α → StateM σ β} {g : α → StateM τ β}
    (hx : InStep R lost x y) (hf : ∀ a, InStep R lost (f a) (g a)) :
    InStep R lost (x >>= f) (y >>= g) := by
  refine ⟨fun s t h => ?_, fun s h => (hf _).stays _ (hx.stays s h)⟩
  rcases hx.together s t h with hl | ⟨ha, hr⟩
  · exact .inl ((hf _).stays _ hl)
  · rw [run_bind, run_bind, ← ha]
    exact (hf _).together _ _ hr

/-- Computations in step that cannot be lost give the same value. -/
theorem value_eq {x : StateM σ α} {y : StateM τ α} (h : InStep R (fun _ => False) x y)
    {s : σ} {t : τ} (hr : R s t) : (x.run s).1 = (y.run t).1 :=
  (h.together s t hr).elim False.elim (·.1)

/-- Computations in step that cannot be lost end in related states. -/
theorem related {x : StateM σ α} {y : StateM τ α} (h : InStep R (fun _ => False) x y)
    {s : σ} {t : τ} (hr : R s t) : R (x.run s).2 (y.run t).2 :=
  (h.together s t hr).elim False.elim (·.2)

end InStep

/-- Whatever state a computation starts from, its value has a property. -/
def Gives (P : α → Prop) (x : StateM σ α) : Prop := ∀ s, P (x.run s).1

namespace Gives

theorem pure {P : α → Prop} {a : α} (h : P a) : Gives P (pure a : StateM σ α) := fun _ => h

theorem bind {P : α → Prop} {Q : β → Prop} {x : StateM σ α} {f : α → StateM σ β}
    (hx : Gives P x) (hf : ∀ a, P a → Gives Q (f a)) : Gives Q (x >>= f) :=
  fun s => hf _ (hx s) _

theorem of_bind {Q : β → Prop} {x : StateM σ α} {f : α → StateM σ β}
    (hf : ∀ a, Gives Q (f a)) : Gives Q (x >>= f) := fun _ => hf _ _

end Gives

end ChangeRelay
