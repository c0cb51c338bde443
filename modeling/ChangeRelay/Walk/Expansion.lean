/-
Expansions. An entry stands for the files that are relayed for it: a file for itself, a directory
for the files below it. They are found one at a time, and before each step of the search, the last
in vain one included, it is asked whether to go on; once the answer is no, the expansion is
interrupted for good.

`foldl_eq_next` says that folding over an expansion is to take its files one after the other.
-/
import ChangeRelay.Settings.Basic
import ChangeRelay.Walk.Visits

namespace ChangeRelay

/-- How entries are expanded. -/
structure Expander where
  inclusion : Inclusion
  rules : WalkRules
  deriving DecidableEq, Repr

/-- An expansion that has begun. -/
structure Expansion where
  inclusion : Inclusion
  /-- What the search has still to meet. -/
  ahead : List Visit
  /-- Whether the answer was that the search should not go on. -/
  interrupted : Bool
  deriving DecidableEq, Repr

namespace Expander

/-- Expands without a limit and without following links. -/
def ofInclusion (i : Inclusion) : Expander := ⟨i, ⟨false, none⟩⟩

/-- Expands as the settings say. -/
def ofSettings (s : Settings) : Expander := ⟨s.inclusion, ⟨s.followLinks, s.maxDepth⟩⟩

/-- What the search for the files of an entry meets. -/
def visits (x : Expander) (d : Disk) (e : Entry) : List Visit :=
  if e.isDirectory then d.walk x.rules e.path else [.entry e]

/-- Begins the expansion of an entry. -/
def expand (x : Expander) (d : Disk) (e : Entry) : Expansion := ⟨x.inclusion, x.visits d e, false⟩

end Expander

/-- The entry that a visit gives, if the choice of files includes it. -/
def Visit.included? (i : Inclusion) : Visit → Option Entry
  | .entry e => if i.includes e then some e else none
  | .unreadable _ => none

variable {σ α β : Type}

/-- Tells nobody. -/
def silent (_ : α) : StateM σ Unit := pure ()

namespace Expansion

/-- Searches for the next file among the visits ahead. -/
def search (i : Inclusion) (goOn : StateM σ Bool) :
    List Visit → StateM σ (Option Entry × Expansion)
  | [] => do
    let yes ← goOn
    pure (none, ⟨i, [], !yes⟩)
  | v :: ahead => do
    let yes ← goOn
    if yes then
      match v.included? i with
      | some e => pure (some e, ⟨i, ahead, false⟩)
      | none => search i goOn ahead
    else pure (none, ⟨i, v :: ahead, true⟩)

/-- The next file of an expansion, and the expansion after it. -/
def next (x : Expansion) (goOn : StateM σ Bool) : StateM σ (Option Entry × Expansion) :=
  if x.interrupted then pure (none, x) else search x.inclusion goOn x.ahead

/-- Folds over the files among the visits ahead. Each visit is told of before its file is looked at. -/
def foldAhead (i : Inclusion) (goOn : StateM σ Bool) (visited : Visit → StateM σ Unit)
    (f : β → Entry → StateM σ β) : List Visit → β → StateM σ (β × Expansion)
  | [], b => do
    let yes ← goOn
    pure (b, ⟨i, [], !yes⟩)
  | v :: ahead, b => do
    let yes ← goOn
    if yes then
      visited v
      match v.included? i with
      | some e => do
        let b ← f b e
        foldAhead i goOn visited f ahead b
      | none => foldAhead i goOn visited f ahead b
    else pure (b, ⟨i, v :: ahead, true⟩)

/-- Takes all files of an expansion, tells of its visits, and folds over the files as they are found. -/
def foldObserved (x : Expansion) (goOn : StateM σ Bool) (visited : Visit → StateM σ Unit)
    (f : β → Entry → StateM σ β) (b : β) : StateM σ (β × Expansion) :=
  if x.interrupted then pure (b, x) else foldAhead x.inclusion goOn visited f x.ahead b

/-- Takes all files of an expansion and folds over them as they are found. -/
def foldl (x : Expansion) (goOn : StateM σ Bool) (f : β → Entry → StateM σ β) (b : β) :
    StateM σ (β × Expansion) :=
  x.foldObserved goOn silent f b

/-- All files of an expansion, and the expansion after them. -/
def collect (x : Expansion) (goOn : StateM σ Bool) : StateM σ (List Entry × Expansion) :=
  x.foldl goOn (fun es e => pure (es ++ [e])) []

/-! ## Folding and taking the next -/

/-- To fold over an expansion is to take the next file, if there is one, and to fold over what
follows. -/
theorem foldl_eq_next (x : Expansion) (goOn : StateM σ Bool) (f : β → Entry → StateM σ β) (b : β) :
    x.foldl goOn f b = (do
      let (e?, y) ← x.next goOn
      match e? with
      | none => pure (b, y)
      | some e => do
        let b ← f b e
        y.foldl goOn f b) := by
  obtain ⟨i, ahead, interrupted⟩ := x
  cases interrupted with
  | true => simp [foldl, foldObserved, next]
  | false =>
    simp only [foldl, foldObserved, next, Bool.false_eq_true, if_false]
    induction ahead with
    | nil => simp [foldAhead, search]
    | cons v ahead ih =>
      simp only [foldAhead, search, silent, pure_bind, bind_assoc]
      refine bind_congr fun yes => ?_
      cases yes with
      | false => simp
      | true =>
        cases h : v.included? i with
        | none => simpa [h] using ih
        | some e => simp

end Expansion
end ChangeRelay
