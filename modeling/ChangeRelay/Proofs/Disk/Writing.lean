/-
What is written can be read. A file is written at a location where nothing stands or a file does. The
way that leads there looks at no other place that the writing changes, so in the tree that is left it
leads to what was written (`write_read`), and to write the same again leaves that tree as it is
(`write_again`).
-/
import ChangeRelay.Disk.Edit
import ChangeRelay.Proofs.Disk.Places

namespace ChangeRelay.Disk

variable {d d' : Disk} {l m here : Location} {node : Node} {content : List UInt8} {p : Path}
  {steps : List Name} {n : Option Node}

/-! ## What stands where after a change -/

theorem find?_replaced (nodes : List (Location × Node)) (l m : Location) (node : Node) :
    ((nodes.map fun e => if e.1 == l then (l, node) else e).find? fun e => e.1 == m) =
      (nodes.find? fun e => e.1 == m).map fun e => if e.1 == l then (l, node) else e := by
  rw [List.find?_map]
  congr 1
  refine congrArg (List.find? · nodes) (funext fun e => ?_)
  by_cases he : e.1 = l <;> simp [he]

@[simp] theorem workingDirectory_set : (d.set l node).workingDirectory = d.workingDirectory := by
  unfold set
  split <;> rfl

theorem lookup_set_of_ne (hm : m ≠ l) : (d.set l node).lookup m = d.lookup m := by
  unfold lookup
  rw [workingDirectory_set]
  split
  · rfl
  unfold set
  split
  · rw [find?_replaced, Option.map_map]
    cases h : d.nodes.find? fun e => e.1 == m with
    | none => rfl
    | some e =>
      have he : e.1 = m := by simpa using List.find?_some h
      simp [he, hm]
  · rw [List.find?_cons_of_neg (by simpa using Ne.symm hm)]

theorem lookup_set_self (hl : d.lookup l ≠ some .directory) : (d.set l node).lookup l = some node := by
  have hwd : ¬l.isPrefixOf d.workingDirectory = true := fun h => hl (by rw [lookup, if_pos h])
  rw [lookup, workingDirectory_set, if_neg hwd]
  unfold set
  split
  · rename_i hany
    obtain ⟨e, he, hel⟩ := List.any_eq_true.1 hany
    rw [find?_replaced]
    cases h : d.nodes.find? fun e => e.1 == l with
    | none => exact absurd hel (List.find?_eq_none.1 h e he)
    | some e =>
      have hfound : e.1 = l := by simpa using List.find?_some h
      simp [hfound]
  · rw [List.find?_cons_of_pos (by simp)]
    rfl

/-- To put a node where it already is changes nothing. -/
theorem set_again : (d.set l node).set l node = d.set l node := by
  by_cases hany : d.nodes.any (fun e => e.1 == l) = true
  · have hset : d.set l node = { d with nodes := d.nodes.map fun e => if e.1 == l then (l, node) else e } := by
      rw [set, if_pos hany]
    have hmap : ((d.nodes.map fun e => if e.1 == l then (l, node) else e).map
        fun e => if e.1 == l then (l, node) else e) = d.nodes.map fun e => if e.1 == l then (l, node) else e := by
      rw [List.map_map]
      refine List.map_congr_left fun e _ => ?_
      by_cases he : e.1 = l <;> simp [he]
    rw [hset]
    unfold set
    split
    · rw [hmap]
    · rename_i hnone
      obtain ⟨e, he, hel⟩ := List.any_eq_true.1 hany
      refine absurd (List.any_eq_true.2 ⟨(l, node), ?_, beq_self_eq_true l⟩) hnone
      exact List.mem_map.2 ⟨e, he, if_pos hel⟩
  · have hset : d.set l node = { d with nodes := (l, node) :: d.nodes } := by rw [set, if_neg hany]
    have hmap : (d.nodes.map fun e => if e.1 == l then (l, node) else e) = d.nodes := by
      refine (List.map_congr_left fun e he => ?_).trans (List.map_id _)
      exact if_neg fun hel => hany (List.any_eq_true.2 ⟨e, he, hel⟩)
    rw [hset, set, if_pos (by simp)]
    simp only [List.map_cons, hmap, beq_self_eq_true, if_true]

/-! ## Where a file can be written -/

/-- A location where nothing stands, or a file. -/
def IsFree (d : Disk) (l : Location) : Prop := d.lookup l = none ∨ ∃ content, d.lookup l = some (.file content)

theorem IsFree.ne_directory (h : d.IsFree l) : d.lookup l ≠ some .directory := by
  rcases h with h | ⟨content, h⟩ <;> simp [h]

theorem IsFree.ne_link (h : d.IsFree l) (target : Path) : d.lookup l ≠ some (.link target) := by
  rcases h with h | ⟨content, h⟩ <;> simp [h]

/-! ## The way to a file that has been written -/

/-- A way to something else than a directory leads to a free location; when a file has been written there,
it leads to the file. -/
theorem descend_set {jump jump' : Location → List Name → Except Fault Place} {last : LastStep}
    (hlast : last ≠ .keep)
    (hjump : ∀ start steps n, jump start steps = .ok (l, n) → n ≠ some .directory →
      d.IsFree l ∧ jump' start steps = .ok (l, some (.file content)))
    (hn : n ≠ some .directory) (h : d.descend .make jump here steps = .ok (l, n)) :
    d.IsFree l ∧
      (d.set l (.file content)).descend last jump' here steps = .ok (l, some (.file content)) := by
  induction steps generalizing here with
  | nil => cases h; exact absurd rfl hn
  | cons s rest ih =>
    rw [descend] at h ⊢
    split at h
    · rename_i hs
      rw [if_pos hs]
      exact ih h
    rename_i hdot
    rw [if_neg hdot]
    split at h
    · rename_i hs
      rw [if_pos hs]
      exact ih h
    rename_i hup
    rw [if_neg hup]
    split at h
    · cases h
    rename_i hlong
    rw [if_neg hlong]
    split at h
    · -- nothing stood there: it is the location
      rename_i hlookup
      split at h
      · rename_i hend
        cases h
        have hfree : d.IsFree (here ++ [s]) := .inl hlookup
        refine ⟨hfree, ?_⟩
        rw [lookup_set_self hfree.ne_directory]
        exact if_pos hend.1
      · cases h
    · rename_i hlookup
      obtain ⟨hfree, hset⟩ := ih h
      have hne : here ++ [s] ≠ l := fun he => hfree.ne_directory (he ▸ hlookup)
      rw [lookup_set_of_ne hne, hlookup]
      exact ⟨hfree, hset⟩
    · -- a file stood there: it is the location
      rename_i content hlookup
      split at h
      · rename_i hend
        cases h
        have hfree : d.IsFree (here ++ [s]) := .inr ⟨content, hlookup⟩
        refine ⟨hfree, ?_⟩
        rw [lookup_set_self hfree.ne_directory]
        exact if_pos hend
      · cases h
    · rename_i target hlookup
      simp only [reduceCtorEq, and_false, if_false, true_and] at h
      split at h
      · cases h
      rename_i htarget
      split at h
      · split at h <;> cases h
      · rename_i hends
        obtain ⟨hfree, hset⟩ := hjump _ _ _ h hn
        have hne : here ++ [s] ≠ l := fun he => hfree.ne_link target (he ▸ hlookup)
        refine ⟨hfree, ?_⟩
        rw [lookup_set_of_ne hne, hlookup]
        dsimp only
        rw [if_neg fun hkeep => hlast hkeep.2, if_neg htarget,
          if_neg fun hmake => hends ⟨hmake.1, hmake.2.2⟩]
        exact hset

theorem resolveFrom_set {last : LastStep} (hlast : last ≠ .keep) :
    ∀ (links : Nat) {here : Location} {steps : List Name} {n : Option Node},
      d.resolveFrom .make links here steps = .ok (l, n) → n ≠ some .directory → d.IsFree l ∧
        (d.set l (.file content)).resolveFrom last links here steps = .ok (l, some (.file content))
  | 0, _, _, _, h, hn => descend_set hlast (fun _ _ _ h _ => by cases h) hn h
  | links + 1, _, _, _, h, hn =>
    descend_set hlast (fun _ _ _ h hn => resolveFrom_set hlast links h hn) hn h

@[simp] theorem origin_set : (d.set l node).origin p = d.origin p := by
  rw [origin, workingDirectory_set, origin]

/-- A path at which a file can be written leads to the file when it has been written. -/
theorem resolve_set {last : LastStep} (hlast : last ≠ .keep) (hn : n ≠ some .directory)
    (h : d.resolve .make p = .ok (l, n)) :
    (d.set l (.file content)).resolve last p = .ok (l, some (.file content)) := by
  unfold resolve at h ⊢
  split at h
  · cases h
  · rw [origin_set]
    exact (resolveFrom_set hlast _ h hn).2

theorem placeToWrite_eq_ok (h : d.placeToWrite p = .ok l) :
    p.endsInSeparator = false ∧ ∃ n, n ≠ some .directory ∧ d.resolve .make p = .ok (l, n) := by
  unfold placeToWrite at h
  split at h
  · cases h
  split at h
  · split at h <;> cases h
  rename_i hends
  refine ⟨by simpa using hends, ?_⟩
  split at h
  · cases h
  · cases h
  · rename_i hdir hresolve
    cases h
    exact ⟨_, hdir, hresolve⟩

/-- A path at which a file has been written leads to the file, and another can be written there. -/
theorem placeToWrite_set (h : d.placeToWrite p = .ok l) :
    (d.set l (.file content)).placeToWrite p = .ok l ∧
      (d.set l (.file content)).resolve .follow p = .ok (l, some (.file content)) := by
  obtain ⟨hends, n, hn, hresolve⟩ := placeToWrite_eq_ok h
  have hunfit : unfit? p = none := by
    unfold placeToWrite at h
    split at h
    · cases h
    · assumption
  refine ⟨?_, resolve_set (by decide) hn hresolve⟩
  have hmake : (d.set l (.file content)).resolve .make p = .ok (l, some (.file content)) :=
    resolve_set (by decide) hn hresolve
  rw [placeToWrite, hunfit, hmake, if_neg (by simp [hends])]

theorem write_eq_ok_iff : d.write p content = .ok d' ↔
    ∃ l, d.placeToWrite p = .ok l ∧ d.set l (.file content) = d' := by
  unfold write
  cases d.placeToWrite p with
  | error f => simp [Except.map]
  | ok l => simp [Except.map]

/-- What has been written is read again. -/
theorem write_read (h : d.write p content = .ok d') : d'.read p = .ok content := by
  obtain ⟨l, hl, rfl⟩ := write_eq_ok_iff.1 h
  rw [read, (placeToWrite_set hl).2]

/-- To write the same again changes nothing. -/
theorem write_again (h : d.write p content = .ok d') : d'.write p content = .ok d' := by
  obtain ⟨l, hl, rfl⟩ := write_eq_ok_iff.1 h
  exact write_eq_ok_iff.2 ⟨l, (placeToWrite_set hl).1, set_again⟩

end ChangeRelay.Disk
