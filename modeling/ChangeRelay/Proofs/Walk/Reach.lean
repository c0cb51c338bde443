/-
How far walks go. A walk enters the directory that its start leads to. In a directory that it has
entered and can read it enters every directory and, where links are followed, every directory that a
link leads to, unless the walk is in that one already. It finds, as files, what it does not enter:
files, links that are not followed, and links that lead to files. Of links that lead nowhere or back
nothing is found, nor of what lies in a directory that cannot be read.

Whatever a walk can enter lies above `Disk.deepest`: the directories that followed links lead to are
different ones, and from one of them to the next the walk goes down one branch of the tree. So the
walk visits as files what can be found and is not too deep (`entry_mem_walk_iff`), and if its names
are those of a file system, it visits no file twice (`walk_apart`).
-/
import ChangeRelay.Proofs.Disk.Places
import ChangeRelay.Walk.Visits
import Mathlib.Tactic.Linarith

namespace ChangeRelay.Disk

/-- Whether a path leads to a link, the last one not followed. -/
def isLink (d : Disk) (p : Path) : Bool :=
  match d.resolve .keep p with
  | .ok (_, some (.link _)) => true
  | _ => false

/-- By the names `ns`, from the path `p` on, a walk enters the directory `here`; then it is in the
directories `within`. -/
inductive Enters (d : Disk) (follow : Bool) (p : Path) :
    List Name → Location → List Location → Prop
  | start {l : Location} (leads : d.resolve .follow p = .ok (l, some .directory)) :
    Enters d follow p [] l [l]
  | directory {ns : List Name} {here : Location} {within : List Location} {n : Name}
    (entered : Enters d follow p ns here within) (readable : d.isDirectory (p.below ns) = true)
    (stands : d.lookup (here ++ [n]) = some .directory) :
    Enters d follow p (ns ++ [n]) (here ++ [n]) ((here ++ [n]) :: within)
  | link {ns : List Name} {here : Location} {within : List Location} {n : Name} {target : Path}
    {l : Location}
    (entered : Enters d follow p ns here within) (readable : d.isDirectory (p.below ns) = true)
    (follows : follow = true) (stands : d.lookup (here ++ [n]) = some (.link target))
    (leads : d.resolve .follow (p.below (ns ++ [n])) = .ok (l, some .directory))
    (out : l ∉ within) :
    Enters d follow p (ns ++ [n]) l (l :: within)

/-- By the names, from the path `p` on, a walk finds something that it takes for a file. -/
inductive Finds (d : Disk) (follow : Bool) (p : Path) : List Name → Prop
  | start (leads : d.leadsSomewhere p = true) (file : d.isDirectory p = false) :
    Finds d follow p []
  | startLink (leads : d.isDirectory p = true) (link : d.isLink p = true) (kept : follow = false) :
    Finds d follow p []
  | file {ns : List Name} {here : Location} {within : List Location} {n : Name}
    {content : List UInt8}
    (entered : d.Enters follow p ns here within) (readable : d.isDirectory (p.below ns) = true)
    (stands : d.lookup (here ++ [n]) = some (.file content)) :
    Finds d follow p (ns ++ [n])
  | link {ns : List Name} {here : Location} {within : List Location} {n : Name} {target : Path}
    (entered : d.Enters follow p ns here within) (readable : d.isDirectory (p.below ns) = true)
    (kept : follow = false) (stands : d.lookup (here ++ [n]) = some (.link target)) :
    Finds d follow p (ns ++ [n])
  | linkToFile {ns : List Name} {here : Location} {within : List Location} {n : Name}
    {target : Path}
    (entered : d.Enters follow p ns here within) (readable : d.isDirectory (p.below ns) = true)
    (follows : follow = true) (stands : d.lookup (here ++ [n]) = some (.link target))
    (leads : d.leadsSomewhere (p.below (ns ++ [n])) = true)
    (file : d.isDirectory (p.below (ns ++ [n])) = false) :
    Finds d follow p (ns ++ [n])

variable {d : Disk} {follow : Bool} {p : Path} {ns ms : List Name} {n : Name} {here l : Location}
  {within : List Location} {e f : Entry} {r : WalkRules} {levels : Nat}

/-! ## How deep directories can be entered -/

namespace Enters

theorem reached (h : d.Enters follow p ns here within) : d.Reached here := by
  induction h with
  | start leads => exact resolve_reached leads
  | directory _ _ stands ih => exact ih.concat stands
  | link _ _ _ _ leads _ _ => exact resolve_reached leads

theorem length_within (h : d.Enters follow p ns here within) : within.length = ns.length + 1 := by
  induction h with
  | start leads => rfl
  | directory _ _ _ ih => simp [ih]
  | link _ _ _ _ _ _ ih => simp [ih]

/-- The directories that a walk is in fall into branches of the tree, each from the start or the
target of a link downward, and the last one down to where it is. -/
theorem branches (h : d.Enters follow p ns here within) :
    ∃ tops : List Location, tops ⊆ within ∧ tops.Nodup ∧
      (∀ l ∈ tops, d.lookup l = some .directory) ∧
      within.length + d.room ≤ tops.length * d.room + here.length + 1 := by
  induction h with
  | @start l leads =>
    refine ⟨[l], List.Subset.refl _, List.nodup_singleton l, ?_, ?_⟩
    · intro m hm
      rw [List.mem_singleton.1 hm]
      exact (resolve_reached leads).lookup_eq
    · rw [List.length_singleton]
      omega
  | @directory _ here within n _ _ _ ih =>
    -- the branch that the walk is in becomes longer by one
    obtain ⟨tops, sub, nodup, dirs, len⟩ := ih
    refine ⟨tops, fun m hm => List.mem_cons_of_mem _ (sub hm), nodup, dirs, ?_⟩
    rw [List.length_cons, List.length_append, List.length_singleton]
    omega
  | @link _ here within _ _ l entered _ _ _ leads out ih =>
    obtain ⟨tops, sub, nodup, dirs, len⟩ := ih
    refine ⟨l :: tops, List.cons_subset_cons l sub,
      List.nodup_cons.2 ⟨fun hl => out (sub hl), nodup⟩, ?_, ?_⟩
    · exact List.forall_mem_cons.2 ⟨(resolve_reached leads).lookup_eq, dirs⟩
    · -- the branch that the walk leaves is no longer than there is room for
      have := entered.reached.length_lt_room
      rw [List.length_cons, List.length_cons, Nat.succ_mul]
      omega

/-- No directory is entered deeper than the bound of the walk. -/
theorem length_lt_deepest (h : d.Enters follow p ns here within) : ns.length < d.deepest := by
  obtain ⟨tops, -, nodup, dirs, len⟩ := h.branches
  have hdeep : d.deepest = (d.room + 1) ^ 2 := rfl
  have htops := length_le_room nodup dirs
  have hhere := h.reached.length_lt_room
  have hwithin := h.length_within
  have hmul : tops.length * d.room ≤ d.room * d.room := Nat.mul_le_mul_right _ htops
  -- there are no more branches than there is room for directories, and none is longer than that
  rw [hdeep]
  nlinarith

end Enters

theorem Finds.length_le_deepest (h : d.Finds follow p ns) : ns.length ≤ d.deepest := by
  cases h with
  | start => exact Nat.zero_le _
  | startLink => exact Nat.zero_le _
  | file entered => rw [List.length_append]; exact entered.length_lt_deepest
  | link entered => rw [List.length_append]; exact entered.length_lt_deepest
  | linkToFile entered => rw [List.length_append]; exact entered.length_lt_deepest

/-- The bound of the walk keeps it from nothing that its rules allow. -/
theorem Finds.length_le_levels_iff (h : d.Finds follow p ns) :
    ns.length ≤ d.levels r ↔ ∀ depth ∈ r.maxDepth, ns.length ≤ depth.toNat := by
  have hle := h.length_le_deepest
  unfold Disk.levels
  cases r.maxDepth with
  | none => simpa using hle
  | some depth => simp [hle]

/-! ## The start of a walk -/

theorem isDirectory_of_resolve (h : d.resolve .follow p = .ok (l, some .directory)) :
    d.isDirectory p = true := by
  rw [isDirectory, h]

theorem file_of_resolve {place : Place} (h : d.resolve .follow p = .ok place)
    (noDirectory : ∀ l, place = (l, some .directory) → False) :
    d.leadsSomewhere p = true ∧ d.isDirectory p = false := by
  constructor
  · rw [leadsSomewhere, h]
  · rw [isDirectory, h]
    split
    · rename_i heq
      exact (noDirectory _ (Except.ok.inj heq)).elim
    · rfl

theorem walk_eq (d : Disk) (r : WalkRules) (p : Path) :
    d.walk r p = match d.resolve .follow p with
      | .error _ => [.unreadable p]
      | .ok (l, some .directory) =>
        .entry ⟨p, r.followLinks || !d.isLink p⟩ :: d.walkBelow r.followLinks (d.levels r) p l [l]
      | .ok _ => [.entry (.file p)] := by
  unfold walk isLink
  rcases resolve_keepsOr (d := d) p with h | ⟨l, target, h⟩
  · rw [← h]
    rcases d.resolve .keep p with f | ⟨l, _ | _ | _ | _⟩ <;> simp [Entry.directory]
  · rw [h]
    rcases d.resolve .follow p with f | ⟨l, _ | _ | _ | _⟩ <;> simp

theorem walk_of_leads (h : d.resolve .follow p = .ok (l, some .directory)) :
    d.walk r p =
      .entry ⟨p, r.followLinks || !d.isLink p⟩ :: d.walkBelow r.followLinks (d.levels r) p l [l] := by
  rw [walk_eq, h]

/-! ## What is found is visited -/

theorem walkBelow_succ (readable : d.isDirectory p = true) :
    d.walkBelow follow (levels + 1) p here within = (d.names here).flatMap fun n =>
      d.walkEntry follow (d.walkBelow follow levels) (p.child n) (here ++ [n]) within := by
  rw [walkBelow, if_pos readable]

theorem walkEntry_subset (readable : d.isDirectory (p.below ns) = true)
    (stands : (d.lookup (here ++ [n])).isSome) (hl : ns.length < levels) :
    d.walkEntry follow (d.walkBelow follow (levels - (ns ++ [n]).length)) (p.below (ns ++ [n]))
        (here ++ [n]) within ⊆
      d.walkBelow follow (levels - ns.length) (p.below ns) here within := by
  obtain ⟨k, hk⟩ : ∃ k, levels - ns.length = k + 1 := ⟨levels - ns.length - 1, by omega⟩
  have hk' : levels - (ns ++ [n]).length = k := by
    rw [List.length_append, List.length_singleton]
    omega
  intro v hv
  rw [hk, walkBelow_succ readable, List.mem_flatMap]
  rw [hk', Path.below_concat] at hv
  exact ⟨n, mem_names_iff.2 stands, hv⟩

/-- A walk goes through each directory that it enters, as far as its rules allow. -/
theorem Enters.walkBelow_subset (h : d.Enters r.followLinks p ns here within)
    (hl : ns.length ≤ d.levels r) :
    d.walkBelow r.followLinks (d.levels r - ns.length) (p.below ns) here within ⊆ d.walk r p := by
  -- on the way down: the walk of a directory is part of that of its entry in the one above
  induction h with
  | start leads =>
    rw [walk_of_leads leads]
    exact List.subset_cons_self _ _
  | @directory ns here within n _ readable stands ih =>
    rw [List.length_append, List.length_singleton] at hl
    refine List.Subset.trans ?_ (ih (by omega))
    refine List.Subset.trans ?_
      (walkEntry_subset readable (Option.isSome_of_eq_some stands) (by omega))
    rw [walkEntry, stands]
    exact List.subset_cons_self _ _
  | @link ns here within n target l _ readable follows stands leads out ih =>
    rw [List.length_append, List.length_singleton] at hl
    refine List.Subset.trans ?_ (ih (by omega))
    refine List.Subset.trans ?_
      (walkEntry_subset readable (Option.isSome_of_eq_some stands) (by omega))
    rw [walkEntry, stands]
    dsimp only
    rw [if_pos follows, leads]
    dsimp only
    rw [if_neg out]
    exact List.subset_cons_self _ _

theorem mem_walk_of_mem_walkEntry {v : Visit} (entered : d.Enters r.followLinks p ns here within)
    (readable : d.isDirectory (p.below ns) = true) (stands : (d.lookup (here ++ [n])).isSome)
    (hl : (ns ++ [n]).length ≤ d.levels r)
    (hv : ∀ below, v ∈ d.walkEntry r.followLinks below (p.below (ns ++ [n])) (here ++ [n]) within) :
    v ∈ d.walk r p := by
  rw [List.length_append, List.length_singleton] at hl
  exact entered.walkBelow_subset (by omega) (walkEntry_subset readable stands (by omega) (hv _))

/-- What a walk finds, not too deep, it visits as a file. -/
theorem Finds.mem_walk (h : d.Finds r.followLinks p ns) (hl : ns.length ≤ d.levels r) :
    .entry (.file (p.below ns)) ∈ d.walk r p := by
  cases h with
  | start leads file =>
    rw [walk_eq]
    unfold leadsSomewhere at leads
    unfold isDirectory at file
    split <;> simp_all
  | startLink leads link kept =>
    unfold isDirectory at leads
    split at leads
    · rename_i heq
      rw [walk_of_leads heq, kept, link]
      exact List.mem_cons_self
    · cases leads
  | file entered readable stands =>
    refine mem_walk_of_mem_walkEntry entered readable (Option.isSome_of_eq_some stands) hl ?_
    intro below
    rw [walkEntry, stands]
    exact List.mem_singleton_self _
  | link entered readable kept stands =>
    refine mem_walk_of_mem_walkEntry entered readable (Option.isSome_of_eq_some stands) hl ?_
    intro below
    rw [walkEntry, stands, kept]
    exact List.mem_singleton_self _
  | linkToFile entered readable follows stands leads file =>
    refine mem_walk_of_mem_walkEntry entered readable (Option.isSome_of_eq_some stands) hl ?_
    intro below
    rw [walkEntry, stands]
    dsimp only
    rw [if_pos follows]
    unfold leadsSomewhere at leads
    unfold isDirectory at file
    split <;> simp_all

/-! ## What is visited is found -/

/-- What a walk visits as a file at an entry of a directory that it has entered, or below it, is
found there, if that holds of the directories which it enters from there. -/
theorem found_at
    (below : ∀ {ns here within}, d.Enters follow p ns here within →
      .entry e ∈ d.walkBelow follow levels (p.below ns) here within →
      ∃ n ms, (n :: ms).length ≤ levels ∧ e.path = p.below (ns ++ n :: ms) ∧
        d.Finds follow p (ns ++ n :: ms))
    (entered : d.Enters follow p ns here within) (readable : d.isDirectory (p.below ns) = true)
    (file : e.isDirectory = false)
    (h : .entry e ∈ d.walkEntry follow (d.walkBelow follow levels) (p.below (ns ++ [n]))
      (here ++ [n]) within) :
    ∃ ms, ms.length ≤ levels ∧ e.path = p.below (ns ++ n :: ms) ∧
      d.Finds follow p (ns ++ n :: ms) := by
  -- where the walk goes on below the entry, the names go on after `n`
  have on : ∀ {l}, d.Enters follow p (ns ++ [n]) l (l :: within) →
      .entry e ∈ .entry (.directory (p.below (ns ++ [n]))) ::
        d.walkBelow follow levels (p.below (ns ++ [n])) l (l :: within) →
      ∃ ms, ms.length ≤ levels ∧ e.path = p.below (ns ++ n :: ms) ∧
        d.Finds follow p (ns ++ n :: ms) := by
    intro l entered' h
    rcases List.mem_cons.1 h with h | h
    · cases h; cases file
    · obtain ⟨m, ms, hlen, hpath, hfinds⟩ := below entered' h
      rw [List.append_assoc, List.singleton_append] at hpath hfinds
      exact ⟨m :: ms, hlen, hpath, hfinds⟩
  have here_file : .entry e ∈ [Visit.entry (.file (p.below (ns ++ [n])))] →
      d.Finds follow p (ns ++ [n]) → ∃ ms, ms.length ≤ levels ∧
        e.path = p.below (ns ++ n :: ms) ∧ d.Finds follow p (ns ++ n :: ms) := by
    intro h hfinds
    cases List.mem_singleton.1 h
    exact ⟨[], Nat.zero_le _, rfl, hfinds⟩
  rw [walkEntry] at h
  split at h
  · cases h
  · rename_i stands
    exact on (.directory entered readable stands) h
  · rename_i stands
    exact here_file h (.file entered readable stands)
  · rename_i target stands
    split at h
    · rename_i follows
      split at h
      · rename_i leads
        split at h
        · cases List.mem_singleton.1 h
        · rename_i out
          exact on (.link entered readable follows stands leads out) h
      · rename_i place noDirectory leads
        obtain ⟨leads, noDirectory⟩ := file_of_resolve leads noDirectory
        exact here_file h (.linkToFile entered readable follows stands leads noDirectory)
      · cases List.mem_singleton.1 h
    · rename_i kept
      exact here_file h (.link entered readable (Bool.eq_false_iff.2 kept) stands)

theorem found_below (entered : d.Enters follow p ns here within) (file : e.isDirectory = false)
    (h : .entry e ∈ d.walkBelow follow levels (p.below ns) here within) :
    ∃ n ms, (n :: ms).length ≤ levels ∧ e.path = p.below (ns ++ n :: ms) ∧
      d.Finds follow p (ns ++ n :: ms) := by
  -- for all directories at once, as the walk goes on in others with one level less
  induction levels generalizing ns here within with
  | zero => cases h
  | succ levels ih =>
    by_cases readable : d.isDirectory (p.below ns) = true
    · rw [walkBelow_succ readable, List.mem_flatMap] at h
      obtain ⟨n, -, h⟩ := h
      rw [← Path.below_concat] at h
      obtain ⟨ms, hlen, found⟩ := found_at ih entered readable file h
      exact ⟨n, ms, Nat.succ_le_succ hlen, found⟩
    · rw [walkBelow, if_neg readable] at h
      cases List.mem_singleton.1 h

theorem found_of_mem_walk (file : e.isDirectory = false) (h : .entry e ∈ d.walk r p) :
    ∃ ns, ns.length ≤ d.levels r ∧ e.path = p.below ns ∧ d.Finds r.followLinks p ns := by
  rw [walk_eq] at h
  split at h
  · cases List.mem_singleton.1 h
  · rename_i l leads
    rcases List.mem_cons.1 h with h | h
    · cases h
      obtain ⟨kept, link⟩ : r.followLinks = false ∧ d.isLink p = true := by simpa using file
      exact ⟨[], Nat.zero_le _, rfl, .startLink (isDirectory_of_resolve leads) link kept⟩
    · obtain ⟨n, ms, hlen, hpath, hfinds⟩ := found_below (.start leads) file h
      exact ⟨n :: ms, hlen, hpath, hfinds⟩
  · rename_i place noDirectory leads
    obtain ⟨leads, noDirectory⟩ := file_of_resolve leads noDirectory
    cases List.mem_singleton.1 h
    exact ⟨[], Nat.zero_le _, rfl, .start leads noDirectory⟩

/-- A walk visits as files what can be found and is not too deep. -/
theorem entry_mem_walk_iff (file : e.isDirectory = false) :
    .entry e ∈ d.walk r p ↔ ∃ ns, (∀ depth ∈ r.maxDepth, ns.length ≤ depth.toNat) ∧
      e.path = p.below ns ∧ d.Finds r.followLinks p ns := by
  constructor
  · intro h
    obtain ⟨ns, hlen, hpath, hfinds⟩ := found_of_mem_walk file h
    exact ⟨ns, hfinds.length_le_levels_iff.1 hlen, hpath, hfinds⟩
  · rintro ⟨ns, hlen, hpath, hfinds⟩
    obtain ⟨path, isDirectory⟩ := e
    obtain rfl : isDirectory = false := file
    obtain rfl : path = p.below ns := hpath
    exact hfinds.mem_walk (hfinds.length_le_levels_iff.2 hlen)

/-- A walk from a path that leads nowhere finds nothing. -/
theorem not_mem_walk_of_lost (h : d.leadsSomewhere p = false) : .entry e ∉ d.walk r p := by
  rw [walk_eq]
  unfold leadsSomewhere at h
  split at h
  · cases h
  · rename_i heq
    rw [heq, List.mem_singleton]
    exact nofun

/-! ## Nothing is visited twice -/

/-- Whether all names in a file tree are those of a file system. -/
def WellNamed (d : Disk) : Prop :=
  (∀ e ∈ d.nodes, ∀ n ∈ e.1, Path.IsName n) ∧ ∀ n ∈ d.workingDirectory, Path.IsName n

instance (d : Disk) : Decidable d.WellNamed := inferInstanceAs (Decidable (_ ∧ _))

/-- What holds of all names in a file tree holds of those under which something stands. -/
theorem name_of_stands {P : Name → Prop} (nodes : ∀ e ∈ d.nodes, ∀ n ∈ e.1, P n)
    (working : ∀ n ∈ d.workingDirectory, P n) (stands : (d.lookup (here ++ [n])).isSome) : P n := by
  have hn : n ∈ here ++ [n] := List.mem_append_right _ (List.mem_singleton_self n)
  rcases lookup_isSome_iff.1 stands with h | ⟨e, he, heq⟩
  · exact working n (h.subset hn)
  · exact nodes e he n (heq ▸ hn)

theorem Enters.stands (h : d.Enters follow p ns here within) :
    ∀ n ∈ ns, ∃ dir, (d.lookup (dir ++ [n])).isSome := by
  induction h with
  | start => exact fun _ h => by cases h
  | directory _ _ stands ih =>
    exact List.forall_mem_append.2
      ⟨ih, List.forall_mem_singleton.2 ⟨_, Option.isSome_of_eq_some stands⟩⟩
  | link _ _ _ stands _ _ ih =>
    exact List.forall_mem_append.2
      ⟨ih, List.forall_mem_singleton.2 ⟨_, Option.isSome_of_eq_some stands⟩⟩

/-- By each name on the way to what is found something stands in some directory. -/
theorem Finds.stands (h : d.Finds follow p ns) :
    ∀ n ∈ ns, ∃ dir, (d.lookup (dir ++ [n])).isSome := by
  have on {ns : List Name} {here : Location} {within : List Location} {n : Name} {node : Node}
      (entered : d.Enters follow p ns here within) (stands : d.lookup (here ++ [n]) = some node) :
      ∀ m ∈ ns ++ [n], ∃ dir, (d.lookup (dir ++ [m])).isSome :=
    List.forall_mem_append.2
      ⟨entered.stands, List.forall_mem_singleton.2 ⟨_, Option.isSome_of_eq_some stands⟩⟩
  cases h with
  | start => exact fun _ h => by cases h
  | startLink => exact fun _ h => by cases h
  | file entered _ stands => exact on entered stands
  | link entered _ _ stands => exact on entered stands
  | linkToFile entered _ _ stands => exact on entered stands

theorem Finds.isName (named : d.WellNamed) (h : d.Finds follow p ns) :
    ∀ n ∈ ns, Path.IsName n := by
  intro n hn
  obtain ⟨dir, stands⟩ := h.stands n hn
  exact name_of_stands named.1 named.2 stands

/-- Two visits do not give the same file. -/
def Apart (v w : Visit) : Prop := ∀ e f, v = .entry e → w = .entry f →
  e.isDirectory = false → f.isDirectory = false → e.path ≠ f.path

theorem apart_directory (q : Path) (w : Visit) : Apart (.entry (.directory q)) w := by
  intro e f he _ hfile
  cases he
  cases hfile

theorem walkBelow_apart (named : d.WellNamed) (entered : d.Enters follow p ns here within) :
    (d.walkBelow follow levels (p.below ns) here within).Pairwise Apart := by
  induction levels generalizing ns here within with
  | zero => exact .nil
  | succ levels ih =>
    by_cases readable : d.isDirectory (p.below ns) = true
    · rw [walkBelow_succ readable, List.pairwise_flatMap]
      constructor
      · intro n hn
        rw [← Path.below_concat, walkEntry]
        have on : ∀ {l}, d.Enters follow p (ns ++ [n]) l (l :: within) →
            (.entry (.directory (p.below (ns ++ [n]))) ::
              d.walkBelow follow levels (p.below (ns ++ [n])) l (l :: within)).Pairwise Apart :=
          fun entered' => .cons (fun w _ => apart_directory _ w) (ih entered')
        split
        · exact .nil
        · rename_i stands
          exact on (.directory entered readable stands)
        · exact List.pairwise_singleton _ _
        · rename_i target stands
          split
          · rename_i follows
            split
            · rename_i leads
              split
              · exact List.pairwise_singleton _ _
              · rename_i out
                exact on (.link entered readable follows stands leads out)
            · exact List.pairwise_singleton _ _
            · exact List.pairwise_singleton _ _
          · exact List.pairwise_singleton _ _
      · -- what is found at different entries has different names on the way down
        refine names_nodup.imp fun {n m} hnm => ?_
        rintro _ hv _ hw e f rfl rfl he hf heq
        rw [← Path.below_concat] at hv hw
        obtain ⟨ms, -, hpath, found⟩ :=
          found_at (fun entered => found_below entered he) entered readable he hv
        obtain ⟨ms', -, hpath', found'⟩ :=
          found_at (fun entered => found_below entered hf) entered readable hf hw
        rw [hpath, hpath'] at heq
        have := Path.below_injective (found.isName named) (found'.isName named) heq
        exact hnm (List.cons.inj (List.append_cancel_left this)).1
    · rw [walkBelow, if_neg readable]
      exact List.pairwise_singleton _ _

/-- In a file tree with the names of a file system a walk visits no file twice. -/
theorem walk_apart (named : d.WellNamed) : (d.walk r p).Pairwise Apart := by
  rw [walk_eq]
  split
  · exact List.pairwise_singleton _ _
  · rename_i l leads
    refine .cons ?_ (walkBelow_apart named (.start leads))
    rintro w hw e f he rfl - hf heq
    obtain ⟨n, ms, -, hpath, found⟩ := found_below (.start leads) hf hw
    cases he
    rw [hpath] at heq
    -- no file below the start is at the start itself
    have hstart : ∀ k ∈ ([] : List Name), Path.IsName k := fun _ h => by cases h
    cases Path.below_injective hstart (found.isName named) heq
  · exact List.pairwise_singleton _ _

end ChangeRelay.Disk
