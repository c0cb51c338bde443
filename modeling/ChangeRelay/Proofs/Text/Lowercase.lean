/-
Lower case. The letters that the case data lower are lowered to characters that they do not lower (`targets_apart`), so
what lower case gives is in lower case, and to take it again changes nothing (`lowercase_lowercase`). The letters from
A to Z are among those that are lowered: of texts in lower case, only one has the letters of the other but for these,
itself (`lowercase_eq_of_map_lowerAscii`). What stands ahead of the letters, such as a dot, stays where it is and comes
of nothing else.
-/
import ChangeRelay.Proofs.Text.Utf8
import ChangeRelay.Text.Lowercase

namespace ChangeRelay.Text

variable {c d : Char} {cs before : List Char} {r r' : CaseRun} {n : Nat}

/-! ## The case data -/

/-- The last code point that a run is lowered to. -/
def CaseRun.lastTarget (r : CaseRun) : Nat := r.target + (r.last - r.first)

/-- No letter of a run is lowered to a letter of another: what they are lowered to lies before or after it, or between
its letters. -/
def CaseRun.apartFrom (r r' : CaseRun) : Bool :=
  decide (r.lastTarget < r'.first) || decide (r'.last < r.target) ||
    (r.stride == 2 || r.first == r.last) && r'.stride == 2 && (r.target + r'.first) % 2 == 1

theorem CaseRun.not_covers_target (apart : r.apartFrom r') (hn : r.covers n) :
    r'.covers (r.target + (n - r.first)) = false := by
  simp only [covers, Bool.and_eq_true, decide_eq_true_eq, beq_iff_eq] at hn
  obtain ⟨⟨hfirst, hlast⟩, hstride⟩ := hn
  simp only [apartFrom, Bool.or_eq_true, Bool.and_eq_true, decide_eq_true_eq, beq_iff_eq] at apart
  simp only [covers, Bool.and_eq_false_iff, decide_eq_false_iff_not, beq_eq_false_iff_ne]
  rcases apart with (hbefore | hafter) | ⟨⟨hsteps, hsteps'⟩, hodd⟩
  · unfold lastTarget at hbefore
    exact .inl (.inl (by omega))
  · exact .inl (.inr (by omega))
  · have heven : (n - r.first) % 2 = 0 := by
      rcases hsteps with htwo | hone
      · rwa [htwo] at hstride
      · omega
    by_cases hbefore : r'.first ≤ r.target + (n - r.first)
    · right
      rw [hsteps']
      omega
    · exact .inl (.inl hbefore)

/-- The dotted capital I, which stands in no run, as a run of its own. -/
def dottedRun : CaseRun := ⟨0x130, 0x130, 2, 0x69⟩

theorem targets_apart : (caseRuns.all fun r => (dottedRun :: caseRuns).all r.apartFrom) = true := by decide +kernel

theorem targets_valid : (caseRuns.all fun r => decide (0x40 < r.first) && decide (0x40 < r.target) &&
    (decide (r.lastTarget < 0xD800) || decide (0xDFFF < r.target) && decide (r.lastTarget < 0x110000))) = true := by
  decide +kernel

/-- A run lies after the marks of ASCII, and what it is lowered to are characters, after them as well. -/
theorem CaseRun.valid (hr : r ∈ caseRuns) : (0x40 < r.first ∧ 0x40 < r.target) ∧
    (r.lastTarget < 0xD800 ∨ 0xDFFF < r.target ∧ r.lastTarget < 0x110000) := by
  simpa using List.all_eq_true.1 targets_valid r hr

theorem toNat_target (hr : r ∈ caseRuns) (hn : r.covers n) :
    (Char.ofNat (r.target + (n - r.first))).toNat = r.target + (n - r.first) := by
  simp only [CaseRun.covers, Bool.and_eq_true, decide_eq_true_eq] at hn
  obtain ⟨-, hvalid⟩ := CaseRun.valid hr
  unfold CaseRun.lastTarget at hvalid
  refine Utf8.toNat_ofNat ?_
  rcases hvalid with hlow | ⟨hhigh, hlast⟩
  · exact .inl (by omega)
  · exact .inr ⟨by omega, by omega⟩

/-! ## Characters in lower case -/

/-- A character is in lower case if it is lowered to itself. -/
def IsLower (c : Char) : Prop := lowerChar c = [c]

instance (c : Char) : Decidable (IsLower c) := inferInstanceAs (Decidable (lowerChar c = [c]))

theorem isLower_of_not_covers (h : ∀ r ∈ dottedRun :: caseRuns, r.covers c.toNat = false) : IsLower c := by
  have hdotted : c.toNat ≠ 0x130 := by
    intro hc
    have := h dottedRun List.mem_cons_self
    rw [hc] at this
    exact absurd this (by decide)
  have hnone : caseRuns.find? (·.covers c.toNat) = none := by
    refine List.find?_eq_none.2 fun r hr => ?_
    rw [h r (List.mem_cons_of_mem _ hr)]
    exact Bool.false_ne_true
  rw [IsLower, lowerChar, if_neg hdotted, hnone]

/-- A character is lowered to another one by its run, unless it is the dotted capital I. -/
theorem mem_lowerChar_cases (h : d ∈ lowerChar c) : (d = 'i' ∨ d = Char.ofNat 0x307) ∨
    (∃ r ∈ caseRuns, r.covers c.toNat ∧ d.toNat = r.target + (c.toNat - r.first)) ∨ IsLower c ∧ d = c := by
  unfold lowerChar at h
  split at h
  · rcases List.mem_cons.1 h with rfl | h
    · exact .inl (.inl rfl)
    · exact .inl (.inr (List.mem_singleton.1 h))
  · rename_i hdotted
    cases hfind : caseRuns.find? (·.covers c.toNat) with
    | none =>
      rw [hfind] at h
      exact .inr (.inr ⟨by rw [IsLower, lowerChar, if_neg hdotted, hfind], List.mem_singleton.1 h⟩)
    | some r =>
      rw [hfind] at h
      have hr : r ∈ caseRuns := List.mem_of_find?_eq_some hfind
      have hcovers : r.covers c.toNat := by simpa using List.find?_some hfind
      exact .inr (.inl ⟨r, hr, hcovers, by rw [List.mem_singleton.1 h, toNat_target hr hcovers]⟩)

/-- What a character is lowered to is in lower case. -/
theorem isLower_of_mem_lowerChar (h : d ∈ lowerChar c) : IsLower d := by
  rcases mem_lowerChar_cases h with (rfl | rfl) | ⟨r, hr, hcovers, hd⟩ | ⟨hc, rfl⟩
  · decide +kernel
  · decide +kernel
  · refine isLower_of_not_covers fun r' hr' => ?_
    rw [hd]
    exact CaseRun.not_covers_target (List.all_eq_true.1 (List.all_eq_true.1 targets_apart r hr) r' hr') hcovers
  · exact hc

theorem isLower_lowerSigma (before after : List Char) : IsLower (lowerSigma before after) := by
  unfold lowerSigma
  split <;> decide +kernel

theorem IsLower.ne_capitalSigma (h : IsLower c) : c ≠ capitalSigma := by
  rintro rfl
  exact absurd h (by decide +kernel)

/-! ## Texts in lower case -/

theorem isLower_of_mem_lowerAfter : ∀ {cs before : List Char}, d ∈ lowerAfter before cs → IsLower d
  | c :: cs, before, h => by
    rw [lowerAfter] at h
    rcases List.mem_append.1 h with h | h
    · split at h
      · rw [List.mem_singleton.1 h]
        exact isLower_lowerSigma before cs
      · exact isLower_of_mem_lowerChar h
    · exact isLower_of_mem_lowerAfter h

theorem isLower_of_mem_lowercase {s : String} (h : c ∈ (lowercase s).toList) : IsLower c := by
  rw [lowercase, String.toList_ofList] at h
  exact isLower_of_mem_lowerAfter h

/-! ## The letters from A to Z -/

/-- A letter from A to Z is lowered as in all of Unicode. -/
theorem lowerChar_of_capital (h : 'A' ≤ c ∧ c ≤ 'Z') : lowerChar c = [lowerAscii c] := by
  have hfirst : 0x41 ≤ c.toNat := h.1
  have hlast : c.toNat ≤ 0x5A := h.2
  have hcovers : (⟨0x41, 0x5A, 1, 0x61⟩ : CaseRun).covers c.toNat = true := by
    simp [CaseRun.covers, hfirst, hlast, Nat.mod_one]
  have hfind : caseRuns.find? (·.covers c.toNat) = some ⟨0x41, 0x5A, 1, 0x61⟩ := List.find?_cons_of_pos hcovers
  rw [lowerChar, if_neg (by omega), hfind, lowerAscii, if_pos h]
  dsimp only
  rw [show 0x61 + (c.toNat - 0x41) = c.toNat + 32 by omega]

theorem IsLower.lowerAscii_eq (h : IsLower c) : lowerAscii c = c := by
  by_cases hc : 'A' ≤ c ∧ c ≤ 'Z'
  · rw [IsLower, lowerChar_of_capital hc] at h
    exact (List.cons.inj h).1
  · exact if_neg hc

/-- A character is lowered like a letter from A to Z, if that leads to lower case. -/
theorem lowerChar_of_isLower_lowerAscii (h : IsLower (lowerAscii c)) :
    lowerChar c = [lowerAscii c] ∧ c ≠ capitalSigma := by
  by_cases hc : 'A' ≤ c ∧ c ≤ 'Z'
  · refine ⟨lowerChar_of_capital hc, ?_⟩
    rintro rfl
    exact absurd hc (by decide)
  · rw [lowerAscii, if_neg hc] at h
    rw [lowerAscii, if_neg hc]
    exact ⟨h, h.ne_capitalSigma⟩

theorem lowerAfter_eq_map (h : ∀ c ∈ cs, IsLower (lowerAscii c)) : lowerAfter before cs = cs.map lowerAscii := by
  induction cs generalizing before with
  | nil => rfl
  | cons c cs ih =>
    obtain ⟨hc, hcs⟩ := List.forall_mem_cons.1 h
    obtain ⟨hlower, hsigma⟩ := lowerChar_of_isLower_lowerAscii hc
    rw [lowerAfter, if_neg hsigma, hlower, ih hcs, List.map_cons, List.singleton_append]

/-- Of the texts in lower case, only one agrees with a text but for the letters A to Z: its own lower case. -/
theorem lowercase_eq_of_map_lowerAscii {s t : String} (h : s.toList.map lowerAscii = (lowercase t).toList) :
    lowercase s = lowercase t := by
  have hs : ∀ c ∈ s.toList, IsLower (lowerAscii c) := fun c hc =>
    isLower_of_mem_lowercase (s := t) (by rw [← h]; exact List.mem_map_of_mem hc)
  rw [lowercase, lowerAfter_eq_map hs, h, String.ofList_toList]

theorem map_lowerAscii_lowercase (s : String) : (lowercase s).toList.map lowerAscii = (lowercase s).toList :=
  (List.map_congr_left fun _ hc => (isLower_of_mem_lowercase hc).lowerAscii_eq).trans (List.map_id _)

/-- What is in lower case stays as it is. -/
theorem lowercase_lowercase (s : String) : lowercase (lowercase s) = lowercase s :=
  lowercase_eq_of_map_lowerAscii (map_lowerAscii_lowercase s)

theorem sameButAsciiCase_lowercase_iff {s t : String} :
    sameButAsciiCase s (lowercase t) = true ↔ s.toList.map lowerAscii = (lowercase t).toList := by
  rw [sameButAsciiCase, map_lowerAscii_lowercase, beq_iff_eq]

/-! ## Marks ahead of the letters -/

theorem isLower_of_mark (h : c.toNat ≤ 0x40) : IsLower c := by
  refine isLower_of_not_covers fun r hr => ?_
  have hfirst : 0x40 < r.first := by
    rcases List.mem_cons.1 hr with rfl | hr
    · decide
    · exact (CaseRun.valid hr).1.1
  have hbefore : ¬ r.first ≤ c.toNat := by omega
  simp [CaseRun.covers, hbefore]

/-- Nothing but a mark itself is lowered to it. -/
theorem eq_of_mem_lowerChar (hd : d.toNat ≤ 0x40) (h : d ∈ lowerChar c) : d = c := by
  rcases mem_lowerChar_cases h with (rfl | rfl) | ⟨r, hr, -, htarget⟩ | ⟨-, rfl⟩
  · exact absurd hd (by decide)
  · exact absurd hd (by decide)
  · obtain ⟨⟨-, hmarks⟩, -⟩ := CaseRun.valid hr
    omega
  · rfl

theorem mem_lowerAfter_iff (hd : d.toNat ≤ 0x40) : d ∈ lowerAfter before cs ↔ d ∈ cs := by
  induction cs generalizing before with
  | nil => rfl
  | cons c cs ih =>
    have hhead : d ∈ (if c = capitalSigma then [lowerSigma before cs] else lowerChar c) ↔ d = c := by
      constructor
      · intro h
        split at h
        · rw [List.mem_singleton.1 h] at hd
          unfold lowerSigma at hd
          split at hd <;> exact absurd hd (by decide)
        · exact eq_of_mem_lowerChar hd h
      · rintro rfl
        have hlower := isLower_of_mark hd
        rw [if_neg hlower.ne_capitalSigma, hlower]
        exact List.mem_singleton_self d
    rw [lowerAfter, List.mem_append, List.mem_cons, ih, hhead]

/-- The marks ahead of the letters stay, and none is added. -/
theorem mem_lowercase_iff {s : String} (hd : d.toNat ≤ 0x40) : d ∈ (lowercase s).toList ↔ d ∈ s.toList := by
  rw [lowercase, String.toList_ofList, mem_lowerAfter_iff hd]

end ChangeRelay.Text
