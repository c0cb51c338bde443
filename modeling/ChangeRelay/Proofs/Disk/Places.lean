/-
Places on a disk. The names listed in a directory are those at which something stands, each once. A
path that leads to a directory leads through directories only, from the root of the file system
down; and a file tree has no more directories than nodes and directories on the way to the working
directory. Where a path leads without a link at its end, it leads as well when links are followed.
-/
import ChangeRelay.Disk.Resolve
import ChangeRelay.Proofs.Path.Below
import Mathlib.Data.List.Infix
import Mathlib.Data.List.Nodup
import Mathlib.Data.List.Perm.Subperm

namespace ChangeRelay.Disk

variable {d : Disk} {l dir : Location} {n : Name} {p : Path} {last : LastStep}

/-! ## The names in a directory -/

theorem nameIn?_eq_some_iff : ∀ {dir l : Location}, nameIn? dir l = some n ↔ l = dir ++ [n]
  | [], [] => by simp [nameIn?]
  | [], [m] => by simp [nameIn?]
  | [], m :: k :: l => by simp [nameIn?]
  | a :: dir, [] => by simp [nameIn?]
  | a :: dir, b :: l => by
    by_cases h : a = b
    · rw [nameIn?, if_pos h, nameIn?_eq_some_iff, h, List.cons_append, List.cons_inj_right]
    · rw [nameIn?, if_neg h, List.cons_append, List.cons_eq_cons]
      simp [Ne.symm h]

theorem stepTowards?_eq_some_iff :
    ∀ {dir l : Location}, stepTowards? dir l = some n ↔ dir ++ [n] <+: l
  | [], [] => by simp [stepTowards?]
  | a :: dir, [] => by simp [stepTowards?]
  | [], m :: l => by simp [stepTowards?, eq_comm]
  | a :: dir, b :: l => by
    by_cases h : a = b
    · rw [stepTowards?, if_pos h, stepTowards?_eq_some_iff, h, List.cons_append,
        List.cons_prefix_cons]
      simp
    · rw [stepTowards?, if_neg h, List.cons_append, List.cons_prefix_cons]
      simp [h]

theorem lookup_isSome_iff :
    (d.lookup l).isSome ↔ l <+: d.workingDirectory ∨ ∃ e ∈ d.nodes, e.1 = l := by
  unfold lookup
  split
  · rename_i h
    exact iff_of_true rfl (.inl (List.isPrefixOf_iff_prefix.1 h))
  · rename_i h
    rw [List.isPrefixOf_iff_prefix] at h
    simp [h]

theorem mem_names_iff : n ∈ d.names dir ↔ (d.lookup (dir ++ [n])).isSome := by
  rw [lookup_isSome_iff, names, List.mem_eraseDups, List.mem_append, List.mem_filterMap,
    Option.mem_toList, stepTowards?_eq_some_iff, or_comm]
  simp only [nameIn?_eq_some_iff]

theorem nodup_eraseDups {α : Type} [BEq α] [LawfulBEq α] : ∀ as : List α, as.eraseDups.Nodup
  | [] => by simp
  | a :: as => by
    rw [List.eraseDups_cons, List.nodup_cons]
    refine ⟨?_, nodup_eraseDups (as.filter fun b => !b == a)⟩
    rw [List.mem_eraseDups, List.mem_filter]
    simp
termination_by as => as.length
decreasing_by exact Nat.lt_succ_of_le (List.length_filter_le _ as)

theorem names_nodup : (d.names dir).Nodup := nodup_eraseDups _

/-! ## Directories -/

/-- Whether a location and all above it are directories. -/
def Reached (d : Disk) (l : Location) : Prop := ∀ up, up <+: l → d.lookup up = some .directory

namespace Reached

theorem lookup_eq (h : d.Reached l) : d.lookup l = some .directory := h l List.prefix_rfl

theorem origin (p : Path) : d.Reached (d.origin p) := by
  have hwd : ∀ up, up <+: d.workingDirectory → d.lookup up = some .directory := fun up h => by
    rw [lookup, if_pos (List.isPrefixOf_iff_prefix.2 h)]
  unfold Disk.origin
  split
  · intro up h
    exact hwd up (h.trans (List.nil_prefix))
  · exact hwd

theorem dropLast (h : d.Reached l) : d.Reached l.dropLast :=
  fun up hup => h up (hup.trans (List.dropLast_prefix l))

theorem concat (h : d.Reached l) (hn : d.lookup (l ++ [n]) = some .directory) :
    d.Reached (l ++ [n]) := fun up hup =>
  (List.prefix_concat_iff.1 hup).elim (fun he => he ▸ hn) (h up)

theorem root (h : d.Reached l) : d.Reached [] :=
  fun up hup => h up (hup.trans List.nil_prefix)

end Reached

/-- The number of directories that a file tree can have. -/
def room (d : Disk) : Nat := d.nodes.length + d.workingDirectory.length + 1

/-- Different directories are no more than there is room for. -/
theorem length_le_room {ls : List Location} (nodup : ls.Nodup)
    (directories : ∀ l ∈ ls, d.lookup l = some .directory) : ls.length ≤ d.room := by
  have hsub : ls ⊆ d.nodes.map (·.1) ++ d.workingDirectory.inits := by
    intro l hl
    have hsome : (d.lookup l).isSome := by rw [directories l hl]; rfl
    rw [List.mem_append, List.mem_inits, List.mem_map]
    exact (lookup_isSome_iff.1 hsome).symm
  have hle := (nodup.subperm hsub).length_le
  rw [List.length_append, List.length_map, List.length_inits] at hle
  exact hle

/-- The directories above one are different, so it lies no deeper than there is room. -/
theorem Reached.length_lt_room (h : d.Reached l) : l.length < d.room := by
  have hnodup : ((List.range (l.length + 1)).map l.take).Nodup := by
    refine List.nodup_range.map_on fun i hi j hj hij => ?_
    have := congrArg List.length hij
    rw [List.mem_range] at hi hj
    rw [List.length_take, List.length_take] at this
    omega
  have hdir : ∀ up ∈ (List.range (l.length + 1)).map l.take, d.lookup up = some .directory := by
    intro up hup
    obtain ⟨i, -, rfl⟩ := List.mem_map.1 hup
    exact h _ (List.take_prefix i l)
  have := length_le_room hnodup hdir
  rw [List.length_map, List.length_range] at this
  exact this

/-! ## Where paths lead -/

/-- The path without bytes leads nowhere. -/
theorem leadsSomewhere_of_nil (hp : p.bytes = []) : d.leadsSomewhere p = false := by
  have hunfit : unfit? p = some .notFound := by
    unfold unfit?
    rw [hp]
    rfl
  rw [leadsSomewhere, resolve, hunfit]

/-- A directory to which steps lead from a directory is reached, if that holds of the links on the
way. -/
theorem descend_reached {jump : Location → List Name → Except Fault Place}
    (hjump : ∀ start steps l, d.Reached start → jump start steps = .ok (l, some .directory) →
      d.Reached l) (steps : List Name) {here : Location} (hh : d.Reached here)
    (h : d.descend last jump here steps = .ok (l, some .directory)) : d.Reached l := by
  induction steps generalizing here with
  | nil => cases h; exact hh
  | cons s rest ih =>
    rw [descend] at h
    split at h
    · exact ih hh h
    split at h
    · exact ih hh.dropLast h
    split at h
    · cases h
    split at h
    · split at h <;> cases h
    · rename_i hdir
      exact ih (hh.concat hdir) h
    · split at h <;> cases h
    · rename_i target _
      split at h
      · cases h
      split at h
      · cases h
      have hstart : d.Reached (if target.isAbsolute then [] else here) := by
        split
        · exact hh.root
        · exact hh
      dsimp only at h
      split at h
      · split at h <;> cases h
      · exact hjump _ _ _ hstart h

theorem resolveFrom_reached : ∀ (links : Nat) {here : Location} {steps : List Name} {l : Location},
    d.Reached here → d.resolveFrom last links here steps = .ok (l, some .directory) → d.Reached l
  | 0, _, steps, _, hh, h => descend_reached (fun _ _ _ _ h => by cases h) steps hh h
  | links + 1, _, steps, _, hh, h =>
    descend_reached (fun _ _ _ hs h => resolveFrom_reached links hs h) steps hh h

/-- A path that leads to a directory leads through directories only. -/
theorem resolve_reached (h : d.resolve last p = .ok (l, some .directory)) : d.Reached l := by
  unfold resolve at h
  split at h
  · cases h
  · exact resolveFrom_reached _ (Reached.origin p) h

/-- The answer without following a link at the end is that with following it, or such a link. -/
def KeepsOr (kept followed : Except Fault Place) : Prop :=
  kept = followed ∨ ∃ l target, kept = .ok (l, some (.link target))

theorem descend_keepsOr {kept followed : Location → List Name → Except Fault Place}
    (hjump : ∀ start steps, KeepsOr (kept start steps) (followed start steps)) (here : Location)
    (steps : List Name) : KeepsOr (d.descend .keep kept here steps) (d.descend .follow followed here steps) := by
  induction steps generalizing here with
  | nil => exact .inl rfl
  | cons s rest ih =>
    rw [descend, descend]
    split
    · exact ih here
    split
    · exact ih here.dropLast
    split
    · exact .inl rfl
    simp only [reduceCtorEq, and_false, and_true, false_and, if_false]
    cases d.lookup (here ++ [s]) with
    | none => exact .inl rfl
    | some node =>
      cases node with
      | directory => exact ih (here ++ [s])
      | file content => exact .inl rfl
      | link target =>
        by_cases hrest : rest = []
        · exact .inr ⟨here ++ [s], target, if_pos hrest⟩
        · dsimp only
          rw [if_neg hrest]
          split
          · exact .inl rfl
          · exact hjump _ _

theorem resolveFrom_keepsOr : ∀ (links : Nat) (here : Location) (steps : List Name),
    KeepsOr (d.resolveFrom .keep links here steps) (d.resolveFrom .follow links here steps)
  | 0, here, steps => descend_keepsOr (fun _ _ => .inl rfl) here steps
  | links + 1, here, steps => descend_keepsOr (resolveFrom_keepsOr links) here steps

theorem resolve_keepsOr (p : Path) : KeepsOr (d.resolve .keep p) (d.resolve .follow p) := by
  unfold resolve
  cases unfit? p with
  | some f => exact .inl rfl
  | none => exact resolveFrom_keepsOr _ _ _

end ChangeRelay.Disk
