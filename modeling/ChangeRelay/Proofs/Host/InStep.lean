/-
Hosts in step. Two hosts need to be compared in their answers only: if these keep step, and so does what
observers do, then so does all that is gathered with them (`gatherObserved_inStep`, and `gather_inStep`
without observers). That a computation may be lost is what lets a host be compared with another up to its
first answer that differs.
-/
import ChangeRelay.Proofs.Computation
import ChangeRelay.Relay.Gather

namespace ChangeRelay

variable {σ τ α β : Type} {R : σ → τ → Prop} {lost : σ → Prop}

/-- Two hosts answer in step the questions that are asked while changes are gathered. -/
structure Host.InStep (R : σ → τ → Prop) (lost : σ → Prop) (h : Host σ) (h' : Host τ) : Prop where
  isDisposed : ∀ p, ChangeRelay.InStep R lost (h.isDisposed p) (h'.isDisposed p)
  findModule : ∀ p e, ChangeRelay.InStep R lost (h.findModule p e) (h'.findModule p e)
  isMetadata : ∀ e, ChangeRelay.InStep R lost (h.isMetadata e) (h'.isMetadata e)

/-- Two observers do in step what they do when they are told. -/
structure Observer.InStep (R : σ → τ → Prop) (lost : σ → Prop) (o : Observer σ) (o' : Observer τ) : Prop where
  took : ∀ m, ChangeRelay.InStep R lost (o.took m) (o'.took m)
  expanding : ∀ m e, ChangeRelay.InStep R lost (o.expanding m e) (o'.expanding m e)
  visited : ∀ v, ChangeRelay.InStep R lost (o.visited v) (o'.visited v)
  added : ∀ c, ChangeRelay.InStep R lost (o.added c) (o'.added c)

theorem silent_inStep : Observer.InStep R lost .silent .silent :=
  ⟨fun _ => .pure (), fun _ _ => .pure (), fun _ => .pure (), fun _ => .pure ()⟩

section

variable {h : Host σ} {h' : Host τ} (hh : Host.InStep R lost h h')
include hh

theorem owner?_inStep (e : Entry) : ∀ ps, InStep R lost (h.owner? e ps) (h'.owner? e ps)
  | [] => .pure none
  | p :: ps => by
    unfold Host.owner?
    refine (hh.isDisposed p).bind fun disposed => ?_
    cases disposed with
    | true => exact owner?_inStep e ps
    | false =>
      refine (hh.findModule p e).bind fun m? => ?_
      cases m? with
      | none => exact owner?_inStep e ps
      | some m => exact .pure (some m)

namespace Memo

theorem isMetadata_inStep (m : Memo) (e : Entry) :
    InStep R lost (m.isMetadata h e) (m.isMetadata h' e) := by
  unfold isMetadata
  cases m.get? e.path with
  | none => exact (hh.isMetadata e).bind fun answer => .pure _
  | some answer => exact .pure _

theorem isRelevant_inStep (m : Memo) (e : Entry) :
    InStep R lost (m.isRelevant h e) (m.isRelevant h' e) := by
  unfold isRelevant
  split
  · exact .pure _
  · exact (isMetadata_inStep hh m e).bind fun r => .pure _

end Memo

omit hh in
theorem foldObserved_inStep {goOn : StateM σ Bool} {goOn' : StateM τ Bool} (hg : InStep R lost goOn goOn')
    {visited : Visit → StateM σ Unit} {visited' : Visit → StateM τ Unit}
    (hv : ∀ v, InStep R lost (visited v) (visited' v))
    {f : β → Entry → StateM σ β} {f' : β → Entry → StateM τ β}
    (hf : ∀ b e, InStep R lost (f b e) (f' b e)) (x : Expansion) (b : β) :
    InStep R lost (x.foldObserved goOn visited f b) (x.foldObserved goOn' visited' f' b) := by
  obtain ⟨i, ahead, interrupted⟩ := x
  cases interrupted with
  | true => exact .pure _
  | false =>
    show InStep R lost (Expansion.foldAhead i goOn visited f ahead b)
      (Expansion.foldAhead i goOn' visited' f' ahead b)
    induction ahead generalizing b with
    | nil => exact hg.bind fun yes => .pure _
    | cons v ahead ih =>
      unfold Expansion.foldAhead
      refine hg.bind fun yes => ?_
      cases yes with
      | false => exact .pure _
      | true =>
        simp only [if_true]
        refine (hv v).bind fun _ => ?_
        cases v.included? i with
        | none => exact ih b
        | some e => exact (hf b e).bind ih

namespace Gathering

variable {o : Observer σ} {o' : Observer τ} (ho : Observer.InStep R lost o o')
  (d : Disk) (x : Expander) (projects : List ProjectId) (classify : Classifier)
include ho

theorem addFile_inStep (m : SourceModule) (k : ChangeKind) (g : Gathering) (e : Entry) :
    InStep R lost (addFile o h m k g e) (addFile o' h' m k g e) := by
  unfold addFile
  refine (Memo.isRelevant_inStep hh g.memo e).bind fun ⟨relevant, memo⟩ => ?_
  cases relevant with
  | false => exact .pure _
  | true =>
    cases Change.ofEntry? m e k with
    | none => exact .pure _
    | some c => exact (ho.added c).bind fun _ => .pure _

theorem addFiles_inStep (m : SourceModule) (k : ChangeKind) (g : Gathering) (e : Entry) :
    InStep R lost (addFiles o h d x m k g e) (addFiles o' h' d x m k g e) := by
  unfold addFiles
  refine (ho.expanding m e).bind fun _ => ?_
  refine (foldObserved_inStep ?_ ho.visited (addFile_inStep hh ho m k) _ _).bind fun r => .pure _
  exact (hh.isDisposed m.project).bind fun disposed => .pure _

theorem addEntry_inStep (k : ChangeKind) (g : Gathering) (e : Entry) :
    InStep R lost (g.addEntry o h d x projects k e) (g.addEntry o' h' d x projects k e) := by
  unfold addEntry
  refine (Memo.isMetadata_inStep hh g.memo e).bind fun r => ?_
  dsimp only
  split
  · exact .pure _
  · refine (owner?_inStep hh e projects).bind fun m? => ?_
    cases m? with
    | none => exact .pure _
    | some m => exact addFiles_inStep hh ho d x m k _ e

theorem addObserved_inStep : ∀ (ms : List Mutation) (g : Gathering),
    InStep R lost (addObserved o h d x projects classify ms g) (addObserved o' h' d x projects classify ms g)
  | [], g => .pure (some g)
  | m :: ms, g => by
    unfold addObserved
    refine (ho.took m).bind fun _ => ?_
    cases classify m with
    | failed => exact .pure none
    | ignored => exact addObserved_inStep ms g
    | counts k => exact (addEntry_inStep hh ho d x projects k g _).bind (addObserved_inStep ms)

end Gathering

/-- Hosts that answer in step lead to the same batch, if observers keep step and the first is not lost. -/
theorem gatherObserved_inStep {o : Observer σ} {o' : Observer τ} (ho : Observer.InStep R lost o o') (d : Disk)
    (x : Expander) (projects : List ProjectId) (classify : Classifier) (ms : List Mutation) :
    InStep R lost (gatherObserved o h d x projects classify ms)
      (gatherObserved o' h' d x projects classify ms) := by
  unfold gatherObserved
  exact (Gathering.addObserved_inStep hh ho d x projects classify ms _).bind fun g? => .pure _

/-- Hosts that answer in step lead to the same batch, unless the first is lost. -/
theorem gather_inStep (d : Disk) (x : Expander) (projects : List ProjectId) (classify : Classifier)
    (ms : List Mutation) :
    InStep R lost (gather h d x projects classify ms) (gather h' d x projects classify ms) :=
  gatherObserved_inStep hh silent_inStep d x projects classify ms

end

end ChangeRelay
