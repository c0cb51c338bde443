/-
Gathering: from reported mutations to a batch of changes. The mutations are taken in their order. One
that counts as a change of some kind, and whose entry is no metadata and has an owner, is expanded,
and each relevant file that is found within the content root of its owner is added to the batch.

The project of the owner is asked about before each step of an expansion, and once it is disposed the
expansion is over; what has been added stays.

What happens on the way is told to an observer. A relay has none (`Observer.silent`), and what an
observer writes down for itself changes nothing.
-/
import ChangeRelay.Change.Mutation
import ChangeRelay.Relay.Batch
import ChangeRelay.Relay.Memo
import ChangeRelay.Walk.Expansion

namespace ChangeRelay

/-- What a mutation counts as. -/
inductive Verdict where
  | counts (kind : ChangeKind)
  | ignored
  /-- It could not be told. -/
  | failed
  deriving DecidableEq, Repr

/-- How mutations are classified. -/
abbrev Classifier := Mutation → Verdict

/-- Classifies mutations that are observed in a phase. -/
def Phase.classifier (p : Phase) : Classifier := fun m =>
  match p.classify m with
  | some k => .counts k
  | none => .ignored

/-- Those who are told what happens while changes are gathered. -/
structure Observer (σ : Type) where
  /-- The next mutation is taken. -/
  took : Mutation → StateM σ Unit
  /-- The expansion of an entry for its owner begins. -/
  expanding : SourceModule → Entry → StateM σ Unit
  visited : Visit → StateM σ Unit
  added : Change → StateM σ Unit

/-- Nobody is told. -/
def Observer.silent {σ : Type} : Observer σ :=
  ⟨ChangeRelay.silent, fun _ => ChangeRelay.silent, ChangeRelay.silent, ChangeRelay.silent⟩

/-- What has been gathered, and what is known about metadata. -/
structure Gathering where
  memo : Memo
  batch : Batch
  deriving DecidableEq, Repr

namespace Gathering

variable {σ : Type}

/-- Before anything has been gathered. -/
def empty : Gathering := ⟨.empty, .empty⟩

/-- Adds a file, if it is relevant and lies within the module. -/
def addFile (o : Observer σ) (h : Host σ) (m : SourceModule) (k : ChangeKind) (g : Gathering)
    (e : Entry) : StateM σ Gathering := do
  let (relevant, memo) ← g.memo.isRelevant h e
  match relevant, Change.ofEntry? m e k with
  | true, some c => do
    o.added c
    pure ⟨memo, g.batch.add m c⟩
  | _, _ => pure ⟨memo, g.batch⟩

/-- Adds the files that an entry stands for, as long as the project of the module is open. -/
def addFiles (o : Observer σ) (h : Host σ) (d : Disk) (x : Expander) (m : SourceModule)
    (k : ChangeKind) (g : Gathering) (e : Entry) : StateM σ Gathering := do
  o.expanding m e
  let (g, _) ← (x.expand d e).foldObserved (return !(← h.isDisposed m.project)) o.visited
    (addFile o h m k) g
  pure g

/-- Adds the changes to an entry: none if it is metadata or belongs to no project that is open. -/
def addEntry (o : Observer σ) (h : Host σ) (d : Disk) (x : Expander) (projects : List ProjectId)
    (k : ChangeKind) (g : Gathering) (e : Entry) : StateM σ Gathering := do
  let (metadata, memo) ← g.memo.isMetadata h e
  if metadata then pure { g with memo := memo }
  else
    match ← h.owner? e projects with
    | none => pure { g with memo := memo }
    | some m => addFiles o h d x m k { g with memo := memo } e

/-- Adds the changes that mutations count as, or nothing at all if one cannot be classified. -/
def addObserved (o : Observer σ) (h : Host σ) (d : Disk) (x : Expander) (projects : List ProjectId)
    (classify : Classifier) : List Mutation → Gathering → StateM σ (Option Gathering)
  | [], g => pure (some g)
  | m :: ms, g => do
    o.took m
    match classify m with
    | .failed => pure none
    | .ignored => addObserved o h d x projects classify ms g
    | .counts k => do
      let g ← g.addEntry o h d x projects k (m.primary k)
      addObserved o h d x projects classify ms g

/-- Adds the changes that mutations count as, and nobody is told what happens meanwhile. -/
def addMutations (h : Host σ) (d : Disk) (x : Expander) (projects : List ProjectId)
    (classify : Classifier) (ms : List Mutation) (g : Gathering) : StateM σ (Option Gathering) :=
  addObserved .silent h d x projects classify ms g

end Gathering

/-- The batch of the changes that mutations count as; none if one of them cannot be classified. What
happens while they are gathered is told to an observer. -/
def gatherObserved {σ : Type} (o : Observer σ) (h : Host σ) (d : Disk) (x : Expander)
    (projects : List ProjectId) (classify : Classifier) (ms : List Mutation) :
    StateM σ (Option Batch) := do
  let g? ← Gathering.addObserved o h d x projects classify ms .empty
  pure (g?.map (·.batch))

/-- The batch of the changes that mutations count as; none if one of them cannot be classified. -/
def gather {σ : Type} (h : Host σ) (d : Disk) (x : Expander) (projects : List ProjectId)
    (classify : Classifier) (ms : List Mutation) : StateM σ (Option Batch) :=
  gatherObserved .silent h d x projects classify ms

/-! ## Without an observer -/

section

variable {σ : Type} (h : Host σ) (d : Disk) (x : Expander) (projects : List ProjectId)
  (classify : Classifier)

theorem Gathering.addFiles_silent (m : SourceModule) (k : ChangeKind) (g : Gathering) (e : Entry) :
    addFiles .silent h d x m k g e = (do
      let (g, _) ← (x.expand d e).foldl (return !(← h.isDisposed m.project)) (addFile .silent h m k) g
      pure g) := rfl

theorem Gathering.addMutations_cons (m : Mutation) (ms : List Mutation) (g : Gathering) :
    addMutations h d x projects classify (m :: ms) g = (match classify m with
      | .failed => pure none
      | .ignored => addMutations h d x projects classify ms g
      | .counts k => do
        let g ← g.addEntry .silent h d x projects k (m.primary k)
        addMutations h d x projects classify ms g) := rfl

theorem gather_eq (ms : List Mutation) : gather h d x projects classify ms = (do
    let g? ← Gathering.addMutations h d x projects classify ms .empty
    pure (g?.map (·.batch))) := rfl

end

end ChangeRelay
