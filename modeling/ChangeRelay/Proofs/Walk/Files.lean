/-
The files that an entry stands for, without the questions that are asked while they are searched
for. Where the answer is always to go on, to fold over an expansion is to fold over these files;
where it never is, it is to do nothing.
-/
import ChangeRelay.Walk.Expansion

namespace ChangeRelay

variable {σ β : Type}

/-- The files that an entry stands for: what a walk from it visits and the choice includes. -/
def Expander.files (x : Expander) (d : Disk) (e : Entry) : List Entry :=
  (x.visits d e).filterMap (Visit.included? x.inclusion)

namespace Expansion

theorem foldAhead_goOn (i : Inclusion) (f : β → Entry → StateM σ β) :
    ∀ (ahead : List Visit) (b : β), foldAhead i (pure true) silent f ahead b =
      (do let b ← (ahead.filterMap (Visit.included? i)).foldlM f b; pure (b, ⟨i, [], false⟩))
  | [], b => rfl
  | v :: ahead, b => by
    rw [foldAhead, pure_bind, if_pos rfl, silent, pure_bind]
    cases hv : v.included? i with
    | none => rw [List.filterMap_cons_none hv]; exact foldAhead_goOn i f ahead b
    | some e =>
      rw [List.filterMap_cons_some hv, List.foldlM_cons, bind_assoc]
      exact bind_congr fun b => foldAhead_goOn i f ahead b

/-- Folding over an expansion that is never told to stop is folding over the files. -/
theorem foldl_goOn (x : Expander) (d : Disk) (e : Entry) (f : β → Entry → StateM σ β) (b : β) :
    (x.expand d e).foldl (pure true) f b =
      (do let b ← (x.files d e).foldlM f b; pure (b, ⟨x.inclusion, [], false⟩)) :=
  foldAhead_goOn x.inclusion f (x.visits d e) b

/-- Folding over an expansion that is told to stop at once is doing nothing. -/
theorem foldl_stop (x : Expander) (d : Disk) (e : Entry) (f : β → Entry → StateM σ β) (b : β) :
    ∃ y, (x.expand d e).foldl (pure false) f b = pure (b, y) := by
  show ∃ y, foldAhead x.inclusion (pure false) silent f (x.visits d e) b = pure (b, y)
  cases x.visits d e with
  | nil => exact ⟨_, rfl⟩
  | cons v ahead => exact ⟨_, rfl⟩

end Expansion

end ChangeRelay
