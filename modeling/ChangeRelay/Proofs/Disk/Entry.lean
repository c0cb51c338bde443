/-
The entries of a directory, as paths lead to them. The last step of a path to an entry is the name of the
entry, and the others lead to the directory, so what stands there decides where the path leads: to a
directory or a file that stands there, and without following it to a link. The path may still lead
nowhere, where it or the name is too long.
-/
import ChangeRelay.Proofs.Disk.Places
import ChangeRelay.Proofs.Path.Within

namespace ChangeRelay

open ChangeRelay.Path (IsName IsEntryName)

variable {p : Path} {n : Name}

namespace Path

/-- The steps to an entry are those to its directory, less a last `.` that only asks for a directory,
and the name of the entry. -/
theorem steps_child (hn : IsName n) : ∃ named tail, p.steps = named ++ tail ∧
    (tail = [] ∨ tail = [[dot]]) ∧ (p.child n).steps = named ++ [n] := by
  obtain ⟨lead, hchild, hlead⟩ := child_eq p n
  have hnamed : (segments p.bytes).filter (· ≠ []) = (segments lead).filter (· ≠ []) := by
    rcases hlead with hp | hp
    · rw [hp]
    · rw [hp, segments_append, List.filter_append]
      simp [segments]
  have hends : (p.child n).endsInSeparator = false := by
    rw [endsInSeparator, beq_eq_false_iff_ne]
    exact child_getLast? hn
  have hsteps : (p.child n).steps = (segments lead).filter (· ≠ []) ++ [n] := by
    unfold steps
    rw [hends, hchild, segments_append, List.filter_append, segments_of_not_mem hn.2]
    simp [hn.1]
  by_cases hlast : (segments lead).filter (· ≠ []) ≠ [] ∧ p.endsInSeparator
  · refine ⟨_, [[dot]], ?_, .inr rfl, hsteps⟩
    unfold steps
    rw [hnamed]
    exact if_pos hlast
  · refine ⟨_, [], ?_, .inl rfl, hsteps⟩
    unfold steps
    rw [hnamed, List.append_nil]
    exact if_neg hlast

end Path

namespace Disk

variable {d : Disk} {l : Location} {last : LastStep} {node : Node} {content : List UInt8}
  {target : Path} {answer : Except Fault Place}

/-! ## The last step -/

/-- Where steps lead to a directory, one step more is a step from there. -/
theorem descend_child {jump jump' : Location → List Name → Except Fault Place} {tail : List Name}
    (htail : tail = [] ∨ tail = [[Path.dot]]) (next : ∀ jump, d.descend last jump l [n] = answer)
    (hjump : ∀ start steps, jump start (steps ++ tail) = .ok (l, some .directory) →
      jump' start (steps ++ [n]) = answer)
    (steps : List Name) {here : Location}
    (h : d.descend .follow jump here (steps ++ tail) = .ok (l, some .directory)) :
    d.descend last jump' here (steps ++ [n]) = answer := by
  induction steps generalizing here with
  | nil =>
    have hl : here = l := by
      rcases htail with rfl | rfl
      · rw [List.append_nil, descend] at h
        cases h
        rfl
      · rw [List.nil_append, descend, if_pos rfl, descend] at h
        cases h
        rfl
    rw [List.nil_append, hl, next]
  | cons s rest ih =>
    rw [List.cons_append, descend] at h
    rw [List.cons_append, descend]
    have hrest : rest ++ [n] ≠ [] := by simp
    split at h
    · rename_i hs
      rw [if_pos hs]
      exact ih h
    rename_i hs
    rw [if_neg hs]
    split at h
    · rename_i hup
      rw [if_pos hup]
      exact ih h
    rename_i hup
    rw [if_neg hup]
    split at h
    · cases h
    rename_i hlong
    rw [if_neg hlong]
    cases hstands : d.lookup (here ++ [s]) with
    | none => simp [hstands] at h
    | some node =>
      rw [hstands] at h
      cases node with
      | directory => exact ih h
      | file content =>
        dsimp only at h
        split at h <;> cases h
      | link target =>
        -- neither the steps so far nor those to the entry end at this link
        dsimp only at h ⊢
        rw [if_neg (by simp)] at h
        rw [if_neg (by simp)]
        split at h
        · cases h
        rename_i hempty
        rw [if_neg hempty, if_neg (by simp), ← List.append_assoc]
        rw [if_neg (by simp), ← List.append_assoc] at h
        exact hjump _ _ h

theorem resolveFrom_child {tail : List Name} (htail : tail = [] ∨ tail = [[Path.dot]])
    (next : ∀ jump, d.descend last jump l [n] = answer) :
    ∀ (links : Nat) {here : Location} {steps : List Name},
      d.resolveFrom .follow links here (steps ++ tail) = .ok (l, some .directory) →
      d.resolveFrom last links here (steps ++ [n]) = answer
  | 0, _, steps, h => descend_child htail next (fun _ _ h => by cases h) steps h
  | links + 1, _, steps, h =>
    descend_child htail next (fun _ _ h => resolveFrom_child htail next links h) steps h

/-- A step to an entry ends where it stands, unless its name is too long; a link must be kept. -/
theorem descend_name (hn : IsEntryName n) (stands : d.lookup (l ++ [n]) = some node)
    (ends : last = .keep ∨ ∀ target, node ≠ .link target) :
    ∃ answer, (∀ jump, d.descend last jump l [n] = answer) ∧
      (answer = .ok (l ++ [n], some node) ∨ ∃ f, answer = .error f) := by
  obtain ⟨-, hdot, hup⟩ := hn
  by_cases hlong : maxName < n.length
  · refine ⟨.error .nameTooLong, fun jump => ?_, .inr ⟨_, rfl⟩⟩
    rw [descend, if_neg hdot, if_neg hup, if_pos hlong]
  · refine ⟨.ok (l ++ [n], some node), fun jump => ?_, .inl rfl⟩
    rw [descend, if_neg hdot, if_neg hup, if_neg hlong, stands]
    cases node with
    | directory => rw [descend]
    | file content => exact if_pos rfl
    | link target =>
      rcases ends with hkeep | hnolink
      · exact if_pos ⟨rfl, hkeep⟩
      · exact absurd rfl (hnolink target)

/-! ## Paths to entries -/

/-- The path of an entry of a directory leads to what stands there, or nowhere. -/
theorem resolve_child (last : LastStep) (leads : d.resolve .follow p = .ok (l, some .directory))
    (hn : IsEntryName n) (stands : d.lookup (l ++ [n]) = some node)
    (ends : last = .keep ∨ ∀ target, node ≠ .link target) :
    d.resolve last (p.child n) = .ok (l ++ [n], some node) ∨
      ∃ f, d.resolve last (p.child n) = .error f := by
  obtain ⟨answer, next, hanswer⟩ := descend_name hn stands ends
  obtain ⟨named, tail, hsteps, htail, hchild⟩ := Path.steps_child (p := p) hn.1
  unfold resolve at leads
  split at leads
  · cases leads
  rename_i hfit
  have hp : p.bytes ≠ [] := by
    intro hnil
    simp [unfit?, hnil] at hfit
  have horigin : d.origin (p.child n) = d.origin p := by
    rw [origin, origin, Path.isAbsolute_child hp]
  unfold resolve
  split
  · exact .inr ⟨_, rfl⟩
  · rw [hsteps] at leads
    rw [hchild, horigin, resolveFrom_child htail next maxLinks leads]
    exact hanswer

/-- A file in a directory is none, by its path. -/
theorem isDirectory_child_of_file (leads : d.resolve .follow p = .ok (l, some .directory))
    (hn : IsEntryName n) (stands : d.lookup (l ++ [n]) = some (.file content)) :
    d.isDirectory (p.child n) = false := by
  unfold isDirectory
  rcases resolve_child .follow leads hn stands (.inr nofun) with h | ⟨f, h⟩ <;> rw [h]

/-- A directory in a directory is where its path leads, if this leads to any. -/
theorem resolve_child_of_directory (leads : d.resolve .follow p = .ok (l, some .directory))
    (hn : IsEntryName n) (stands : d.lookup (l ++ [n]) = some .directory)
    (readable : d.isDirectory (p.child n) = true) :
    d.resolve .follow (p.child n) = .ok (l ++ [n], some .directory) := by
  rcases resolve_child .follow leads hn stands (.inr nofun) with h | ⟨f, h⟩
  · exact h
  · rw [isDirectory, h] at readable
    cases readable

end Disk

end ChangeRelay
