/-
The questions that an expansion asks. Before each visit, and once more when there is none left, it is asked
whether to go on; so the number of yeses that come before the first no (`granted`) decides what is
collected: the files among as many visits, after one question more than visits were made
(`Expansion.collect_run`). Files that are taken one by one are the same (`Expansion.nexts_of_collect`); they
come after as many questions as visits (`Expansion.nexts_run`), and after the first time that there is no next
there is none again (`Expansion.nexts_fused`).
-/
import ChangeRelay.Proofs.Computation
import ChangeRelay.Walk.Expansion
import Mathlib.Data.List.Basic

namespace ChangeRelay

variable {σ : Type} {goOn : StateM σ Bool} {s : σ} {i : Inclusion} {ahead : List Visit}
  {x y : Expansion} {e : Entry} {n : Nat}

/-! ## Answers in a row -/

/-- The state after a question has been asked a number of times. -/
def askedTimes (goOn : StateM σ Bool) : Nat → σ → σ
  | 0, s => s
  | n + 1, s => askedTimes goOn n (goOn.run s).2

/-- The answer to a question that has been asked a number of times before. -/
def answerAfter (goOn : StateM σ Bool) (s : σ) (n : Nat) : Bool := (goOn.run (askedTimes goOn n s)).1

/-- How many of the first `n` answers are yes, before one is no. -/
def granted (goOn : StateM σ Bool) : Nat → σ → Nat
  | 0, _ => 0
  | n + 1, s => if (goOn.run s).1 then granted goOn n (goOn.run s).2 + 1 else 0

theorem askedTimes_add (m : Nat) : askedTimes goOn (n + m) s = askedTimes goOn m (askedTimes goOn n s) := by
  induction n generalizing s with
  | zero => rw [Nat.zero_add]; rfl
  | succ n ih => rw [Nat.succ_add]; exact ih

theorem granted_of_all (hyes : ∀ k < n, answerAfter goOn s k = true) : granted goOn n s = n := by
  induction n generalizing s with
  | zero => rfl
  | succ n ih =>
    have hfirst : (goOn.run s).1 = true := hyes 0 (by omega)
    rw [granted, if_pos hfirst, ih fun k hk => hyes (k + 1) (by omega)]

theorem granted_of_first {j : Nat} (hj : j < n) (hyes : ∀ k < j, answerAfter goOn s k = true)
    (hno : answerAfter goOn s j = false) : granted goOn n s = j := by
  induction n generalizing s j with
  | zero => omega
  | succ n ih =>
    cases j with
    | zero =>
      have hfirst : (goOn.run s).1 = false := hno
      simp [granted, hfirst]
    | succ j =>
      have hfirst : (goOn.run s).1 = true := hyes 0 (by omega)
      rw [granted, if_pos hfirst, ih (by omega) (fun k hk => hyes (k + 1) (by omega)) hno]

/-- Goes on for a number of questions; the state counts them. -/
def budget (limit : Nat) : StateM Nat Bool := do
  modify (· + 1)
  return decide ((← get) ≤ limit)

theorem budget_run (limit asked : Nat) :
    (budget limit).run asked = (decide (asked + 1 ≤ limit), asked + 1) := rfl

theorem granted_budget (limit n asked : Nat) :
    granted (budget limit) n asked = min n (limit - asked) := by
  induction n generalizing asked with
  | zero => simp [granted]
  | succ n ih =>
    rw [granted, budget_run, ih]
    dsimp only
    by_cases h : asked + 1 ≤ limit
    · simp only [h, decide_true, if_true]
      omega
    · simp only [h, decide_false, Bool.false_eq_true, if_false]
      omega

/-! ## Collecting -/

namespace Expansion

theorem foldAhead_run (goOn : StateM σ Bool) (s : σ) (i : Inclusion) (ahead : List Visit) (es : List Entry) :
    let yeses := granted goOn (ahead.length + 1) s
    (foldAhead i goOn silent (fun es e => pure (es ++ [e])) ahead es).run s =
      ((es ++ (ahead.take yeses).filterMap (Visit.included? i),
          ⟨i, ahead.drop yeses, decide (yeses ≤ ahead.length)⟩),
        askedTimes goOn (min yeses ahead.length + 1) s) := by
  induction ahead generalizing s es with
  | nil =>
    intro yeses
    have hrun : (foldAhead i goOn silent (fun es e => pure (es ++ [e])) [] es).run s =
        ((es, ⟨i, [], !(goOn.run s).1⟩), (goOn.run s).2) := rfl
    have hyeses : yeses = if (goOn.run s).1 then 1 else 0 := rfl
    rw [hrun, hyeses]
    cases (goOn.run s).1 <;> simp [askedTimes]
  | cons v ahead ih =>
    intro yeses
    rw [foldAhead, run_bind]
    cases hyes : (goOn.run s).1 with
    | false =>
      have hyeses : yeses = 0 := by simp [yeses, granted, hyes]
      rw [hyeses]
      simp only [Bool.false_eq_true, if_false, List.take_zero, List.drop_zero, List.filterMap_nil,
        List.append_nil, Nat.zero_le, decide_true, Nat.zero_min]
      rfl
    | true =>
      have hyeses : yeses = granted goOn (ahead.length + 1) (goOn.run s).2 + 1 := by
        simp [yeses, granted, hyes]
      rw [hyeses, if_pos rfl]
      simp only [List.take_succ_cons, List.drop_succ_cons, List.length_cons, Nat.add_le_add_iff_right,
        Nat.add_min_add_right]
      cases hv : v.included? i with
      | none =>
        rw [List.filterMap_cons_none hv]
        exact ih _ es
      | some e =>
        rw [List.filterMap_cons_some hv]
        refine (ih (goOn.run s).2 (es ++ [e])).trans ?_
        rw [List.append_assoc, List.singleton_append]
        rfl

/-- What is collected are the files among as many visits as there are yeses before the first no. -/
theorem collect_run (x : Expander) (d : Disk) (e : Entry) (goOn : StateM σ Bool) (s : σ) :
    let visits := x.visits d e
    let yeses := granted goOn (visits.length + 1) s
    ((x.expand d e).collect goOn).run s =
      (((visits.take yeses).filterMap (Visit.included? x.inclusion),
          ⟨x.inclusion, visits.drop yeses, decide (yeses ≤ visits.length)⟩),
        askedTimes goOn (min yeses visits.length + 1) s) :=
  foldAhead_run goOn s x.inclusion (x.visits d e) []

/-! ## Taking one file after the other -/

/-- Asks an expansion for the next file a number of times, whatever it answers. -/
def nexts (goOn : StateM σ Bool) : Nat → Expansion → StateM σ (List (Option Entry) × Expansion)
  | 0, x => pure ([], x)
  | n + 1, x => do
    let (e?, y) ← x.next goOn
    let (es, z) ← nexts goOn n y
    pure (e? :: es, z)

theorem nexts_succ_run (goOn : StateM σ Bool) (n : Nat) (x : Expansion) (s : σ) :
    (nexts goOn (n + 1) x).run s =
      let r := (x.next goOn).run s
      let q := (nexts goOn n r.1.2).run r.2
      ((r.1.1 :: q.1.1, q.1.2), q.2) := rfl

/-- The file that a search finds is the one file of the visits up to its own, and as many questions have
been asked as visits were made. -/
theorem search_found (h : ((search i goOn ahead).run s).1.1 = some e) :
    ∃ k ≤ ahead.length, (ahead.take k).filterMap (Visit.included? i) = [e] ∧
      (search i goOn ahead).run s = ((some e, ⟨i, ahead.drop k, false⟩), askedTimes goOn k s) := by
  induction ahead generalizing s with
  | nil => cases h
  | cons v ahead ih =>
    rw [search, run_bind] at h ⊢
    cases hyes : (goOn.run s).1 with
    | false =>
      rw [hyes] at h
      cases h
    | true =>
      rw [hyes, if_pos rfl] at h
      rw [if_pos rfl]
      cases hv : v.included? i with
      | none =>
        rw [hv] at h
        obtain ⟨k, hk, hfiles, hrun⟩ := ih h
        refine ⟨k + 1, by simpa using hk, ?_, hrun⟩
        rw [List.take_succ_cons, List.filterMap_cons_none hv, hfiles]
      | some f =>
        rw [hv] at h
        cases h
        exact ⟨1, by simp, by simp [hv], rfl⟩

/-- An expansion without a next file: it was interrupted, or nothing is ahead of it. -/
def Spent (x : Expansion) : Prop := x.interrupted = true ∨ x.ahead = []

theorem search_spent (h : ((search i goOn ahead).run s).1.1 = none) :
    ((search i goOn ahead).run s).1.2.Spent := by
  induction ahead generalizing s with
  | nil => exact .inr rfl
  | cons v ahead ih =>
    rw [search, run_bind] at h ⊢
    cases hyes : (goOn.run s).1 with
    | false => exact .inl rfl
    | true =>
      rw [hyes, if_pos rfl] at h
      rw [if_pos rfl]
      cases hv : v.included? i with
      | none =>
        rw [hv] at h
        exact ih h
      | some f =>
        rw [hv] at h
        cases h

theorem next_spent (h : ((x.next goOn).run s).1.1 = none) : ((x.next goOn).run s).1.2.Spent := by
  unfold next at h ⊢
  split at h
  · rename_i hx
    rw [if_pos hx]
    exact .inl hx
  · rename_i hx
    rw [if_neg hx]
    exact search_spent h

theorem Spent.next (hx : x.Spent) :
    ((x.next goOn).run s).1.1 = none ∧ ((x.next goOn).run s).1.2.Spent := by
  have hnone : ((x.next goOn).run s).1.1 = none := by
    obtain ⟨i, ahead, interrupted⟩ := x
    rcases hx with hx | hx
    · cases hx; rfl
    · cases hx
      cases interrupted <;> rfl
  exact ⟨hnone, next_spent hnone⟩

theorem Spent.nexts (hx : x.Spent) : ((nexts goOn n x).run s).1.1 = List.replicate n none := by
  induction n generalizing x s with
  | zero => rfl
  | succ n ih =>
    have hnone : ((x.next goOn).run s).1.1 = none := hx.next.1
    have hspent : ((x.next goOn).run s).1.2.Spent := hx.next.2
    rw [nexts_succ_run]
    dsimp only
    rw [hnone, ih hspent, List.replicate_succ]

/-- Once there was no next file, there is none however often it is asked for. -/
theorem nexts_fused (goOn : StateM σ Bool) (n : Nat) (x : Expansion) (s : σ) :
    ∃ (es : List Entry) (k : Nat), ((nexts goOn n x).run s).1.1 = es.map some ++ List.replicate k none := by
  induction n generalizing x s with
  | zero => exact ⟨[], 0, rfl⟩
  | succ n ih =>
    rw [nexts_succ_run]
    dsimp only
    cases h : ((x.next goOn).run s).1.1 with
    | none =>
      refine ⟨[], n + 1, ?_⟩
      rw [(next_spent h).nexts, List.map_nil, List.nil_append, List.replicate_succ]
    | some e =>
      obtain ⟨es, k, hrest⟩ := ih ((x.next goOn).run s).1.2 ((x.next goOn).run s).2
      exact ⟨e :: es, k, by rw [hrest, List.map_cons, List.cons_append]⟩

/-- An interrupted expansion stays as it is, and nothing is asked any more. -/
theorem nexts_interrupted (hx : x.interrupted = true) :
    nexts goOn n x = pure (List.replicate n none, x) := by
  have hnext : x.next goOn = pure (none, x) := if_pos hx
  induction n with
  | zero => rfl
  | succ n ih =>
    rw [nexts, hnext, pure_bind]
    dsimp only
    rw [ih, pure_bind, List.replicate_succ]

/-- As long as there was always a next file, as many questions have been asked as visits were made. -/
theorem nexts_run {es : List Entry} {t : σ}
    (h : (nexts goOn n ⟨i, ahead, false⟩).run s = ((es.map some, y), t)) :
    ∃ k ≤ ahead.length, es = (ahead.take k).filterMap (Visit.included? i) ∧
      y = ⟨i, ahead.drop k, false⟩ ∧ t = askedTimes goOn k s := by
  induction n generalizing ahead s es with
  | zero =>
    cases es with
    | nil => cases h; exact ⟨0, by omega, rfl, rfl, rfl⟩
    | cons e es => cases h
  | succ n ih =>
    have hnext : (⟨i, ahead, false⟩ : Expansion).next goOn = search i goOn ahead := if_neg Bool.false_ne_true
    rw [nexts_succ_run, hnext] at h
    dsimp only at h
    cases es with
    | nil => cases h
    | cons e es =>
      rw [List.map_cons, Prod.mk.injEq, Prod.mk.injEq, List.cons.injEq] at h
      obtain ⟨⟨⟨hfound, hanswers⟩, hy⟩, ht⟩ := h
      obtain ⟨k, hk, hfiles, hrun⟩ := search_found hfound
      rw [hrun] at hanswers hy ht
      obtain ⟨m, hm, hes, hy, ht⟩ := ih (Prod.ext (Prod.ext hanswers hy) ht)
      rw [List.length_drop] at hm
      refine ⟨k + m, by omega, ?_, ?_, ?_⟩
      · rw [List.take_add, List.filterMap_append, hfiles, hes, List.singleton_append]
      · rw [hy, List.drop_drop]
      · rw [ht, askedTimes_add]

/-! ## Taking one file after the other is collecting -/

/-- To fold with files gathered before is to collect, and to put these in front. -/
theorem foldl_push_run (goOn : StateM σ Bool) (s : σ) (x : Expansion) (before : List Entry) :
    (x.foldl goOn (fun es e => pure (es ++ [e])) before).run s =
      let r := (x.collect goOn).run s
      ((before ++ r.1.1, r.1.2), r.2) := by
  obtain ⟨i, ahead, interrupted⟩ := x
  cases interrupted with
  | true => exact congrArg (fun es => ((es, _), s)) (List.append_nil before).symm
  | false =>
    have hfold : ∀ es, ((⟨i, ahead, false⟩ : Expansion).foldl goOn (fun es e => pure (es ++ [e])) es).run s = _ :=
      fun es => foldAhead_run goOn s i ahead es
    rw [collect, hfold, hfold []]
    rfl

/-- To collect is to take the next file, if there is one, and to collect what follows. -/
theorem collect_eq_next (goOn : StateM σ Bool) (s : σ) (x : Expansion) :
    (x.collect goOn).run s =
      let r := (x.next goOn).run s
      match r.1.1 with
      | none => (([], r.1.2), r.2)
      | some e =>
        let q := (r.1.2.collect goOn).run r.2
        ((e :: q.1.1, q.1.2), q.2) := by
  rw [collect, foldl_eq_next, run_bind]
  dsimp only
  cases ((x.next goOn).run s).1.1 with
  | none => rfl
  | some e => exact foldl_push_run goOn _ _ [e]

/-- Taken one after the other, the files are those that are collected, and then there is none. -/
theorem nexts_of_collect {es : List Entry} {t : σ} (h : (x.collect goOn).run s = ((es, y), t)) :
    (nexts goOn (es.length + 1) x).run s = ((es.map some ++ [none], y), t) := by
  induction es generalizing x s with
  | nil =>
    rw [collect_eq_next] at h
    rw [nexts_succ_run]
    dsimp only at h ⊢
    cases hnext : ((x.next goOn).run s).1.1 with
    | none =>
      rw [hnext] at h
      cases h
      rfl
    | some e => rw [hnext] at h; cases h
  | cons e es ih =>
    rw [collect_eq_next] at h
    rw [List.length_cons, nexts_succ_run]
    dsimp only at h ⊢
    cases hnext : ((x.next goOn).run s).1.1 with
    | none => rw [hnext] at h; cases h
    | some f =>
      rw [hnext] at h
      cases h
      rw [ih rfl]
      rfl

end Expansion

/-! ## Where an expansion stops -/

namespace Expander

/-- An expansion asks once before each visit, of which a file has one, and once more at the end. The
first no, where it comes at or before that end, interrupts it for good: it asks no more, and has yielded the
files among the visits before. Without a no it yields all files. They are the same taken one by one, and
once there was no next file there never is one again. A larger budget of questions only adds files. -/
theorem expand_asks (x : Expander) (d : Disk) (e : Entry) (goOn : StateM σ Bool) (s : σ) :
    let visits := x.visits d e
    let collected := ((x.expand d e).collect goOn).run s
    (e.isDirectory = false → visits = [.entry e]) ∧
    (∀ j ≤ visits.length, (∀ k < j, answerAfter goOn s k = true) → answerAfter goOn s j = false →
      collected = (((visits.take j).filterMap (Visit.included? x.inclusion),
        ⟨x.inclusion, visits.drop j, true⟩), askedTimes goOn (j + 1) s)) ∧
    (∀ n, collected.1.2.interrupted = true →
      collected.1.2.nexts goOn n = pure (List.replicate n none, collected.1.2)) ∧
    ((∀ k ≤ visits.length, answerAfter goOn s k = true) →
      collected = ((visits.filterMap (Visit.included? x.inclusion), ⟨x.inclusion, [], false⟩),
        askedTimes goOn (visits.length + 1) s)) ∧
    ((x.expand d e).nexts goOn (collected.1.1.length + 1)).run s =
      ((collected.1.1.map some ++ [none], collected.1.2), collected.2) ∧
    (∀ n (es : List Entry) y t, ((x.expand d e).nexts goOn n).run s = ((es.map some, y), t) →
      ∃ k ≤ visits.length, es = (visits.take k).filterMap (Visit.included? x.inclusion) ∧
        y = ⟨x.inclusion, visits.drop k, false⟩ ∧ t = askedTimes goOn k s) ∧
    (∀ n, ∃ (es : List Entry) (k : Nat),
      (((x.expand d e).nexts goOn n).run s).1.1 = es.map some ++ List.replicate k none) ∧
    ∀ m n, m ≤ n → (((x.expand d e).collect (budget m)).run 0).1.1 <+:
      (((x.expand d e).collect (budget n)).run 0).1.1 := by
  intro visits collected
  have hcollected : collected =
      (((visits.take (granted goOn (visits.length + 1) s)).filterMap (Visit.included? x.inclusion),
          ⟨x.inclusion, visits.drop (granted goOn (visits.length + 1) s),
            decide (granted goOn (visits.length + 1) s ≤ visits.length)⟩),
        askedTimes goOn (min (granted goOn (visits.length + 1) s) visits.length + 1) s) :=
    Expansion.collect_run x d e goOn s
  refine ⟨fun hfile => ?_, fun j hj hyes hno => ?_, fun n => Expansion.nexts_interrupted, fun hyes => ?_,
    Expansion.nexts_of_collect rfl, fun n es y t => Expansion.nexts_run,
    fun n => Expansion.nexts_fused goOn n _ s, fun m n hmn => ?_⟩
  · simp [visits, Expander.visits, hfile]
  · rw [hcollected, granted_of_first (by omega) hyes hno, decide_eq_true hj, Nat.min_eq_left hj]
  · rw [hcollected, granted_of_all fun k hk => hyes k (by omega), List.take_of_length_le (by omega),
      List.drop_of_length_le (by omega), decide_eq_false (by omega), Nat.min_eq_right (by omega)]
  · rw [Expansion.collect_run, Expansion.collect_run]
    dsimp only
    rw [granted_budget, granted_budget]
    exact (List.take_prefix_take_left (by omega)).filterMap _

end Expander
end ChangeRelay
