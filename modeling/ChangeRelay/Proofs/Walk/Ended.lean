/-
What an expansion tells after its end. There are two ways to end: after all visits, or by a no. The second is final: an
interrupted expansion asks nothing any more (`Expansion.nexts_interrupted`). An expansion that ended after all visits
goes on to ask once for each next file that it is asked for in vain, so that a no that comes late still interrupts it
(`Expansion.nexts_exhausted`). What it tells stays as it was at the end only as long as the answers are yes
(`Expander.interrupted_final_iff`).
-/
import ChangeRelay.Proofs.Walk.Questions

namespace ChangeRelay

variable {σ : Type} {goOn : StateM σ Bool} {s t : σ} {i : Inclusion} {x : Expansion} {n k : Nat}

theorem granted_le (goOn : StateM σ Bool) (n : Nat) (s : σ) : granted goOn n s ≤ n := by
  induction n generalizing s with
  | zero => exact Nat.le_refl 0
  | succ n ih =>
    rw [granted]
    split
    · exact Nat.succ_le_succ (ih _)
    · exact Nat.zero_le _

/-- All of the first answers are yes exactly if as many of them are before the first no. -/
theorem granted_eq_iff : granted goOn n s = n ↔ ∀ k < n, answerAfter goOn s k = true := by
  refine ⟨fun hall => ?_, granted_of_all⟩
  induction n generalizing s with
  | zero => simp
  | succ n ih =>
    rw [granted] at hall
    split at hall
    · rename_i hfirst
      intro k hk
      cases k with
      | zero => exact hfirst
      | succ k => exact ih (Nat.succ.inj hall) k (by omega)
    · cases hall

namespace Expansion

/-! ## After the end -/

/-- Whether an expansion is interrupted after it has been asked for a next file a number of times. -/
def interruptedAfter (x : Expansion) (goOn : StateM σ Bool) (n : Nat) (s : σ) : Bool :=
  ((x.nexts goOn n).run s).1.2.interrupted

theorem Spent.nexts_snd (hx : x.Spent) : ((x.nexts goOn n).run s).1.2.Spent := by
  induction n generalizing x s with
  | zero => exact hx
  | succ n ih => exact ih hx.next.2

/-- Once there was no next file, the expansion is spent. -/
theorem spent_of_none_mem (h : none ∈ ((nexts goOn n x).run s).1.1) : ((nexts goOn n x).run s).1.2.Spent := by
  induction n generalizing x s with
  | zero => exact absurd h List.not_mem_nil
  | succ n ih =>
    rw [nexts_succ_run] at h ⊢
    rcases List.mem_cons.1 h with hnow | hlater
    · exact (next_spent hnow.symm).nexts_snd
    · exact ih hlater

/-- An expansion that has nothing ahead asks once for each next file, up to the first no. -/
theorem nexts_exhausted (goOn : StateM σ Bool) (n : Nat) (s : σ) :
    (nexts goOn n ⟨i, [], false⟩).run s =
      ((List.replicate n none, ⟨i, [], decide (granted goOn n s < n)⟩),
        askedTimes goOn (min n (granted goOn n s + 1)) s) := by
  induction n generalizing s with
  | zero => rfl
  | succ n ih =>
    have hnext : (next ⟨i, [], false⟩ goOn).run s = ((none, ⟨i, [], !(goOn.run s).1⟩), (goOn.run s).2) := rfl
    rw [nexts_succ_run, hnext, granted]
    cases (goOn.run s).1 with
    | true =>
      rw [Bool.not_true]
      dsimp only
      rw [ih, if_pos rfl, Nat.add_min_add_right]
      simp only [Nat.add_lt_add_iff_right, List.replicate_succ]
      rfl
    | false =>
      rw [Bool.not_false]
      dsimp only
      rw [nexts_interrupted rfl, if_neg Bool.false_ne_true, decide_eq_true (Nat.succ_pos n),
        Nat.min_eq_right (by omega)]
      rfl

/-- A spent expansion is interrupted later if it has been, or if there was a no since. -/
theorem Spent.interruptedAfter (hx : x.Spent) :
    x.interruptedAfter goOn k t = (x.interrupted || decide (granted goOn k t < k)) := by
  unfold Expansion.interruptedAfter
  obtain ⟨i, ahead, interrupted⟩ := x
  cases interrupted with
  | true =>
    rw [nexts_interrupted rfl]
    rfl
  | false =>
    obtain rfl : ahead = [] := hx.resolve_left Bool.false_ne_true
    rw [nexts_exhausted, Bool.false_or]

/-- What a spent expansion tells is final exactly if it is interrupted or every later answer is yes. -/
theorem Spent.final_iff (hx : x.Spent) :
    (∀ k, x.interruptedAfter goOn k t = x.interrupted) ↔
      x.interrupted = true ∨ ∀ k, answerAfter goOn t k = true := by
  cases hinterrupted : x.interrupted with
  | true => simp [hx.interruptedAfter, hinterrupted]
  | false =>
    have hall : ∀ k, x.interruptedAfter goOn k t = false ↔ granted goOn k t = k := by
      intro k
      rw [hx.interruptedAfter, hinterrupted, Bool.false_or, decide_eq_false_iff_not, Nat.not_lt]
      exact ⟨fun h => Nat.le_antisymm (granted_le goOn k t) h, fun h => Nat.le_of_eq h.symm⟩
    simp only [hall, granted_eq_iff, Bool.false_eq_true, false_or]
    exact ⟨fun h k => h (k + 1) k (Nat.lt_succ_self k), fun h _ k _ => h k⟩

end Expansion

/-! ## What is told is final or not -/

namespace Expander

/-- An expansion that has answered once that there is no next file. What it tells from then on depends on the state `t`
in which it is asked further: it is interrupted if it was so at its end, or if an answer since was no. So an
interruption is final; that there was none is final exactly if every later answer is yes. -/
theorem interrupted_final_iff (x : Expander) (d : Disk) (e : Entry) (goOn : StateM σ Bool) (s : σ) (n : Nat)
    (ended : none ∈ (((x.expand d e).nexts goOn n).run s).1.1) :
    let y := (((x.expand d e).nexts goOn n).run s).1.2
    ∀ t, (∀ k, y.interruptedAfter goOn k t = (y.interrupted || decide (granted goOn k t < k))) ∧
      ((∀ k, y.interruptedAfter goOn k t = y.interrupted) ↔
        y.interrupted = true ∨ ∀ k, answerAfter goOn t k = true) := by
  intro y t
  have hspent : y.Spent := Expansion.spent_of_none_mem ended
  exact ⟨fun k => hspent.interruptedAfter, hspent.final_iff⟩

/-- The file `a` on a budget of two questions that are used up ends interrupted. It stays so even if the budget is
renewed. -/
theorem interrupted_final_refused :
    let ends := (((ofInclusion .all).expand (.empty []) (.file ⟨[97]⟩)).nexts (budget 2) 1).run 2
    none ∈ ends.1.1 ∧ ends.1.2.interrupted = true ∧
      ∀ t k, ends.1.2.interruptedAfter (budget 2) k t = true := by
  intro ends
  have ended : none ∈ ends.1.1 := by decide
  have refused : ends.1.2.interrupted = true := by decide
  refine ⟨ended, refused, fun t k => ?_⟩
  have final := (interrupted_final_iff (ofInclusion .all) (.empty []) (.file ⟨[97]⟩) (budget 2) 2 1 ended t).2
  exact (final.2 (.inl refused) k).trans refused

/-- The file `a` on a budget of two questions is found and the end reached without a no; asked once more after that,
the expansion is interrupted. -/
theorem interrupted_after_end :
    let ends := (((ofInclusion .all).expand (.empty []) (.file ⟨[97]⟩)).nexts (budget 2) 2).run 0
    ends.1.1 = [some (.file ⟨[97]⟩), none] ∧ ends.1.2.interrupted = false ∧
      ends.1.2.interruptedAfter (budget 2) 1 ends.2 = true := by
  decide

end Expander
end ChangeRelay
