/-
Paths on the way down. From a path one goes down by the names of entries, with a separator before
each name. The names of a file system are not empty and have no separator in them; by such names no
two ways down lead to one path.
-/
import ChangeRelay.Path
import Mathlib.Data.List.TakeWhile

namespace ChangeRelay.Path

variable {p q : Path} {n m : List UInt8} {ns ms : List (List UInt8)}

/-- The path to which one comes from a path by the names of entries. -/
def below (p : Path) (ns : List (List UInt8)) : Path := ns.foldl child p

@[simp] theorem below_nil : p.below [] = p := rfl

@[simp] theorem below_cons : p.below (n :: ns) = (p.child n).below ns := rfl

theorem below_append : p.below (ns ++ ms) = (p.below ns).below ms := List.foldl_append

theorem below_concat : p.below (ns ++ [n]) = (p.below ns).child n := below_append

/-- A name that an entry of a file system can have. -/
def IsName (n : List UInt8) : Prop := n ≠ [] ∧ separator ∉ n

instance (n : List UInt8) : Decidable (IsName n) := inferInstanceAs (Decidable (_ ∧ _))

/-! ## The bytes of a path below another -/

/-- What stands before the name of an entry of a directory depends on the directory only. -/
theorem child_bytes (p : Path) : ∃ lead, p.bytes.length ≤ lead.length ∧
    ∀ n, (p.child n).bytes = lead ++ n := by
  by_cases h : p.bytes.getLast? = some separator
  · exact ⟨p.bytes, Nat.le_refl _, fun n => by rw [child, if_pos h]⟩
  · refine ⟨p.bytes ++ [separator], by simp, fun n => ?_⟩
    rw [child, if_neg h, List.append_assoc, List.singleton_append]

theorem child_getLast? (hn : IsName n) : (p.child n).bytes.getLast? ≠ some separator := by
  obtain ⟨lead, -, hlead⟩ := child_bytes p
  rw [hlead, List.getLast?_append, List.getLast?_eq_some_getLast hn.1, Option.some_or]
  intro h
  exact hn.2 (Option.some.inj h ▸ List.getLast_mem hn.1)

/-- Below a path that does not end in a separator, every name has one before it. -/
theorem below_bytes (hp : p.bytes.getLast? ≠ some separator) (hns : ∀ n ∈ ns, IsName n) :
    (p.below ns).bytes = p.bytes ++ ns.flatMap (separator :: ·) := by
  induction ns generalizing p with
  | nil => simp
  | cons n ns ih =>
    have hn := hns n List.mem_cons_self
    rw [below_cons, ih (child_getLast? hn) fun m hm => hns m (List.mem_cons_of_mem n hm), child,
      if_neg hp, List.flatMap_cons, List.append_assoc]

theorem below_length (hns : ∀ n ∈ ns, IsName n) :
    p.bytes.length + ns.length ≤ (p.below ns).bytes.length := by
  induction ns generalizing p with
  | nil => exact Nat.le_refl _
  | cons n ns ih =>
    have hn := hns n List.mem_cons_self
    obtain ⟨lead, hle, hlead⟩ := child_bytes p
    have hpos : 0 < n.length := List.length_pos_iff.2 hn.1
    have hlen : (p.child n).bytes.length = lead.length + n.length := by
      rw [hlead, List.length_append]
    have := ih (p := p.child n) fun m hm => hns m (List.mem_cons_of_mem n hm)
    rw [below_cons, List.length_cons]
    omega

/-! ## The way down can be told from the path -/

theorem takeWhile_name (hn : IsName n) (ns : List (List UInt8)) :
    (n ++ ns.flatMap (separator :: ·)).takeWhile (· ≠ separator) = n := by
  rw [List.takeWhile_append_of_pos]
  · cases ns with
    | nil => simp
    | cons m ns => simp
  · intro b hb
    exact decide_eq_true fun h => hn.2 (h ▸ hb)

theorem name_eq_of_below_eq (hn : IsName n) (hm : IsName m) (hns : ∀ k ∈ ns, IsName k)
    (hms : ∀ k ∈ ms, IsName k) (h : (p.child n).below ns = (p.child m).below ms) : n = m := by
  obtain ⟨lead, -, hlead⟩ := child_bytes p
  have h' := congrArg Path.bytes h
  rw [below_bytes (child_getLast? hn) hns, below_bytes (child_getLast? hm) hms, hlead, hlead,
    List.append_assoc, List.append_assoc] at h'
  rw [← takeWhile_name hn ns, List.append_cancel_left h', takeWhile_name hm ms]

/-- One comes to a path below another by one way only. -/
theorem below_injective (hns : ∀ k ∈ ns, IsName k) (hms : ∀ k ∈ ms, IsName k)
    (h : p.below ns = p.below ms) : ns = ms := by
  have hlen : (p.below ns).bytes.length = (p.below ms).bytes.length := by rw [h]
  induction ns generalizing p ms with
  | nil =>
    have := below_length (p := p) hms
    rw [below_nil] at hlen
    exact (List.length_eq_zero_iff.1 (by omega)).symm
  | cons n ns ih =>
    cases ms with
    | nil =>
      have := below_length (p := p) hns
      rw [hlen, below_nil, List.length_cons] at this
      omega
    | cons m ms =>
      have hn := List.forall_mem_cons.1 hns
      have hm := List.forall_mem_cons.1 hms
      obtain rfl := name_eq_of_below_eq hn.1 hm.1 hn.2 hm.2 h
      rw [ih hn.2 hm.2 h hlen]

end ChangeRelay.Path
