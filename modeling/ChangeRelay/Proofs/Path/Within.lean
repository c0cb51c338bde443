/-
Paths within others. The components of a path below another are those of that one and then what the
names on the way down give (`components_below`), so what contains a directory contains all below it; and
a root that does not lie below a directory contains all below it or nothing (`startsWith_below_eq`). A
path within a root has no name relative to it only if it is the root (`relativeTo?_eq_none_iff`). By
the names of entries, of which none is `.` or `..`, two ways down lead to the same path only if they
are the same way (`below_same_iff`).
-/
import ChangeRelay.Proofs.Path.Below
import ChangeRelay.Proofs.Path.Components
import Mathlib.Data.List.Basic

namespace ChangeRelay.Path

variable {p q root : Path} {n m : List UInt8} {ns ms : List (List UInt8)}

/-! ## Segments -/

theorem segments_append (cs : List UInt8) :
    ∀ bs : List UInt8, segments (bs ++ separator :: cs) = segments bs ++ segments cs
  | [] => by simp [segments]
  | b :: bs => by
    rw [List.cons_append, segments, segments, segments_append cs bs]
    by_cases hb : b = separator
    · rw [if_pos hb, if_pos hb, List.cons_append]
    · rw [if_neg hb, if_neg hb]
      cases h : segments bs with
      | nil => exact absurd h (segments_ne_nil bs)
      | cons s ss => rfl

theorem segments_of_not_mem : ∀ {n : List UInt8}, separator ∉ n → segments n = [n]
  | [], _ => rfl
  | b :: bs, h => by
    rw [List.mem_cons, not_or] at h
    rw [segments, if_neg (Ne.symm h.1), segments_of_not_mem h.2]

/-! ## Components on the way down -/

/-- The components that a name of an entry gives. -/
def nameComponents (n : List UInt8) : List Component := (segments n).filterMap innerComponent?

/-- Between the bytes of a directory and the name of an entry in it there is one separator, which may
be the last byte of the directory. -/
theorem child_eq (p : Path) (n : List UInt8) :
    ∃ lead, (p.child n).bytes = lead ++ separator :: n ∧
      (p.bytes = lead ∨ p.bytes = lead ++ [separator]) := by
  by_cases h : p.bytes.getLast? = some separator
  · obtain ⟨lead, hlead⟩ := List.getLast?_eq_some_iff.1 h
    refine ⟨lead, ?_, .inr hlead⟩
    rw [child, if_pos h, hlead, List.append_assoc, List.singleton_append]
  · exact ⟨p.bytes, by rw [child, if_neg h], .inl rfl⟩

theorem child_bytes_ne_nil : (p.child n).bytes ≠ [] := by
  obtain ⟨lead, hchild, -⟩ := child_eq p n
  rw [hchild]
  simp

theorem isAbsolute_child (hp : p.bytes ≠ []) : (p.child n).isAbsolute = p.isAbsolute := by
  obtain ⟨lead, hchild, hp' | hp'⟩ := child_eq p n
  · obtain ⟨b, bs, hb⟩ := List.exists_cons_of_ne_nil hp
    rw [isAbsolute, isAbsolute, hchild, ← hp', hb]
    rfl
  · rw [isAbsolute, isAbsolute, hchild, hp']
    cases lead <;> rfl

theorem components_child (hp : p.bytes ≠ []) (n : List UInt8) :
    (p.child n).components = p.components ++ nameComponents n := by
  obtain ⟨lead, hchild, hlead⟩ := child_eq p n
  obtain ⟨s, ss, hs⟩ := List.exists_cons_of_ne_nil (segments_ne_nil lead)
  have hsegments : segments (p.child n).bytes = s :: (ss ++ segments n) := by
    rw [hchild, segments_append, hs, List.cons_append]
  -- a separator at the end of the directory gives an empty segment, which is no component
  obtain ⟨ts, hts, hnone⟩ : ∃ ts, segments p.bytes = s :: (ss ++ ts) ∧
      ts.filterMap innerComponent? = [] := by
    rcases hlead with hp' | hp'
    · exact ⟨[], by rw [hp', hs, List.append_nil], rfl⟩
    · exact ⟨[[]], by rw [hp', segments_append, hs]; rfl, rfl⟩
  simp only [components, hsegments, hts, isAbsolute_child hp, List.filterMap_append, hnone,
    List.append_nil, List.append_assoc, nameComponents]

theorem components_below (hp : p.bytes ≠ []) (ns : List (List UInt8)) :
    (p.below ns).components = p.components ++ ns.flatMap nameComponents := by
  induction ns generalizing p with
  | nil => simp
  | cons n ns ih =>
    rw [below_cons, ih child_bytes_ne_nil, components_child hp, List.flatMap_cons, List.append_assoc]

/-! ## Names of entries -/

/-- A name under which an entry can be made: `.` and `..` are taken. -/
def IsEntryName (n : List UInt8) : Prop := IsName n ∧ n ≠ [dot] ∧ n ≠ [dot, dot]

instance (n : List UInt8) : Decidable (IsEntryName n) := inferInstanceAs (Decidable (_ ∧ _))

theorem IsEntryName.nameComponents (h : IsEntryName n) : nameComponents n = [.name n] := by
  obtain ⟨⟨hne, hsep⟩, hdot, hup⟩ := h
  rw [Path.nameComponents, segments_of_not_mem hsep, List.filterMap_cons, innerComponent?, if_neg hne,
    if_neg hdot, if_neg hup, List.filterMap_nil]

theorem components_below_of_names (hp : p.bytes ≠ []) (hns : ∀ n ∈ ns, IsEntryName n) :
    (p.below ns).components = p.components ++ ns.map .name := by
  rw [components_below hp, List.map_eq_flatMap]
  congr 1
  exact List.flatMap_congr fun n hn => (hns n hn).nameComponents

/-- Different ways down by the names of entries lead to different paths, however these are compared. -/
theorem below_same_iff (hp : p.bytes ≠ []) (hns : ∀ n ∈ ns, IsEntryName n)
    (hms : ∀ n ∈ ms, IsEntryName n) : (p.below ns).Same (p.below ms) ↔ ns = ms := by
  unfold Same
  rw [components_below_of_names hp hns, components_below_of_names hp hms, List.append_cancel_left_eq]
  exact List.map_inj_right fun _ _ h => Component.name.inj h

/-! ## What a root contains -/

theorem following?_eq_some_iff : ∀ {rs cs ds : List Component},
    following? rs cs = some ds ↔ cs = rs ++ ds
  | [], cs, ds => by simp [following?]
  | r :: rs, [], ds => by simp [following?]
  | r :: rs, c :: cs, ds => by
    rw [following?, List.cons_append, List.cons_eq_cons]
    split
    · rename_i h
      rw [following?_eq_some_iff, h, and_iff_right rfl]
    · rename_i h
      exact iff_of_false (Option.some_ne_none ds).symm fun h' => h h'.1.symm

theorem startsWith_iff : p.startsWith root = true ↔ root.components <+: p.components := by
  unfold startsWith
  rw [Option.isSome_iff_exists]
  simp only [following?_eq_some_iff]
  constructor
  · rintro ⟨ds, h⟩
    exact ⟨ds, h.symm⟩
  · rintro ⟨ds, h⟩
    exact ⟨ds, h.symm⟩

/-- A path within a root has a name relative to it, unless it is the root. -/
theorem relativeTo?_eq_none_iff (within : p.startsWith root = true) :
    p.relativeTo? root = none ↔ p.Same root := by
  obtain ⟨ds, hds⟩ := startsWith_iff.1 within
  unfold relativeTo? Same
  rw [following?_eq_some_iff.2 hds.symm, ← hds]
  cases ds with
  | nil => simp
  | cons c cs => simp

/-- All that lies below a path is within what the path is within. -/
theorem startsWith_below (hp : p.bytes ≠ []) (within : p.startsWith root = true) :
    (p.below ns).startsWith root = true := by
  rw [startsWith_iff, components_below hp]
  exact (startsWith_iff.1 within).trans (List.prefix_append _ _)

/-- A root that does not lie below a directory contains what is below the directory exactly if it
contains the directory. -/
theorem startsWith_below_eq (hp : p.bytes ≠ []) (out : root.startsWith p = true → root.Same p) :
    (p.below ns).startsWith root = p.startsWith root := by
  rw [Bool.eq_iff_iff]
  refine ⟨fun h => ?_, startsWith_below hp⟩
  rw [startsWith_iff, components_below hp] at h
  rw [startsWith_iff]
  -- of two beginnings of the components below, one is a beginning of the other
  rcases List.prefix_or_prefix_of_prefix h (List.prefix_append _ _) with h | h
  · exact h
  · have hsame : root.components = p.components := out (startsWith_iff.2 h)
    exact hsame ▸ List.prefix_rfl

end ChangeRelay.Path
