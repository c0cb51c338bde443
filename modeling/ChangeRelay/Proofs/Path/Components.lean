/-
Paths by their components. To be the same is an equivalence of paths. Only the path without bytes
has no components, so every other path has a name relative to it.
-/
import ChangeRelay.Path

namespace ChangeRelay.Path

theorem Same.refl (p : Path) : p.Same p := rfl

theorem Same.symm {p q : Path} (h : p.Same q) : q.Same p := Eq.symm h

theorem Same.trans {p q r : Path} (h : p.Same q) (h' : q.Same r) : p.Same r := Eq.trans h h'

theorem Same.decide_congr {p q : Path} (h : p.Same q) (r : Path) : decide (r.Same p) = decide (r.Same q) :=
  decide_eq_decide.2 ⟨fun hp => hp.trans h, fun hq => hq.trans h.symm⟩

theorem segments_ne_nil : ∀ bs : List UInt8, segments bs ≠ []
  | [] => List.cons_ne_nil _ _
  | b :: bs => by
    unfold segments
    split
    · exact List.cons_ne_nil _ _
    · split <;> exact List.cons_ne_nil _ _

/-- The first segment of what does not start with a separator starts with the first byte. -/
theorem segments_cons_of_ne {b : UInt8} (hb : b ≠ separator) (bs : List UInt8) :
    ∃ s ss, segments (b :: bs) = (b :: s) :: ss := by
  rw [segments, if_neg hb]
  cases h : segments bs with
  | nil => exact absurd h (segments_ne_nil bs)
  | cons s ss => exact ⟨s, ss, rfl⟩

theorem innerComponent?_isSome {s : List UInt8} (h : s ≠ []) (hdot : s ≠ [dot]) :
    (innerComponent? s).isSome := by
  unfold innerComponent?
  rw [if_neg h, if_neg hdot]
  split <;> rfl

/-- Only the path without bytes has no components. -/
theorem components_eq_nil_iff {p : Path} : p.components = [] ↔ p.bytes = [] := by
  obtain ⟨bytes⟩ := p
  cases bytes with
  | nil => exact iff_of_true rfl rfl
  | cons b bs =>
    refine iff_of_false (fun h => ?_) (List.cons_ne_nil _ _)
    by_cases hb : b = separator
    · subst hb
      simp [components, segments, isAbsolute] at h
    · obtain ⟨s, ss, hs⟩ := segments_cons_of_ne hb bs
      have habs : isAbsolute ⟨b :: bs⟩ = false := by simpa [isAbsolute] using hb
      simp only [components, hs, habs, Bool.false_eq_true, if_false, List.append_eq_nil_iff] at h
      obtain ⟨h, -⟩ := h
      split at h
      · cases h
      · rename_i hdot
        have := innerComponent?_isSome (List.cons_ne_nil b s) hdot
        rw [Option.toList_eq_nil_iff.1 h] at this
        cases this

/-- Every path but the one without bytes has a name relative to that one. -/
theorem relativeTo?_isSome {p : Path} (hp : p.bytes ≠ []) : (p.relativeTo? ⟨[]⟩).isSome := by
  unfold relativeTo?
  rw [components_eq_nil_iff.2 rfl, following?]
  cases h : p.components with
  | nil => exact absurd (components_eq_nil_iff.1 h) hp
  | cons c cs => rfl

end ChangeRelay.Path
