/-
The phases against each other. A mutation counts as the same in the settled phase as after it is applied, but for a
deletion, which counts only before and when all is settled; before it is applied a move counts as a deletion too, that
of its source, and in no other phase does (`Phase.filter_classify_settled`). So if the answers do not change and agree
on all spellings of a path that are met, what is gathered in the settled phase falls apart into what is gathered after
the mutations and what is gathered before those of them that are no moves (`gatherPhases_agree`).
-/
import ChangeRelay.Proofs.Relay.Gather
import ChangeRelay.Proofs.Relay.Spellings

namespace ChangeRelay

variable {σ : Type}

/-! ## What a mutation counts as -/

/-- Whether a mutation moved an entry. -/
def Mutation.isMove : Mutation → Bool
  | .moved _ _ => true
  | _ => false

namespace Phase

/-- A mutation counts the same when all is settled and just after it, unless it is a deletion. -/
theorem filter_classify_settled (n : Mutation) :
    (settled.classify n).filter (· != .deleted) = afterMutation.classify n := by
  cases n <;> rfl

/-- A mutation is a deletion when all is settled exactly if it is one before, and no move. -/
theorem filter_classify_settled_deleted (n : Mutation) :
    (settled.classify n).filter (· == .deleted) = if n.isMove then none else beforeMutation.classify n := by
  cases n <;> rfl

theorem classifier_ne_failed (p : Phase) (n : Mutation) : p.classifier n ≠ .failed := by
  unfold classifier
  cases p.classify n with
  | none => exact Verdict.noConfusion
  | some k => exact Verdict.noConfusion

end Phase

/-! ## What a mutation comes to in a phase -/

namespace Answers

variable (a : Answers) (d : Disk) (x : Expander) (projects : List ProjectId)

/-- The changes that a mutation comes to by itself if it counts as of a kind. -/
def changesAs (n : Mutation) (k? : Option ChangeKind) : List Change :=
  match k? with
  | some k => (a.ofEntry d x projects [] k (n.primary k)).2
  | none => []

/-- The changes to a module that a mutation comes to by itself in a phase. -/
def ownTo (p : Phase) (m : SourceModule) (n : Mutation) : List Change :=
  (a.changesBy d x projects p.classifier n).filter fun c => decide (c.module.Same m)

variable {a d x projects} {m : SourceModule} {n : Mutation} {k : ChangeKind} {k? : Option ChangeKind} {c : Change}

theorem changesBy_classifier (p : Phase) :
    a.changesBy d x projects p.classifier n = a.changesAs d x projects n (p.classify n) := by
  unfold changesBy Phase.classifier changesAs
  cases p.classify n <;> rfl

/-- The changes are of the kind that the mutation counts as, and to files of the entry that it is about then. -/
theorem mem_changesAs (hc : c ∈ a.changesAs d x projects n (some k)) :
    c.kind = k ∧ ∃ f ∈ x.files d (n.primary k), Change.ofEntry? c.module f k = some c := by
  obtain ⟨f, hf, hchange⟩ := mem_ofEntry_snd hc
  obtain ⟨-, -, hof⟩ := of_change? hchange
  exact ⟨(Change.of_ofEntry? hof).2.1, f, hf, hof⟩

/-- The changes of some kinds are what the mutation comes to if it counts as one of these. -/
theorem filter_changesAs (P : ChangeKind → Bool) :
    (a.changesAs d x projects n k?).filter (fun c => P c.kind) = a.changesAs d x projects n (k?.filter P) := by
  cases k? with
  | none => rfl
  | some k =>
    rw [Option.filter_some]
    cases hk : P k with
    | true => exact List.filter_eq_self.2 fun c hc => by rw [(mem_changesAs hc).1, hk]
    | false => exact List.filter_eq_nil_iff.2 fun c hc => by rw [(mem_changesAs hc).1, hk]; exact Bool.false_ne_true

/-- Of what a mutation comes to when all is settled, those of some kinds are what it comes to if it counts as one of
these. -/
theorem filter_ownTo_settled (P : ChangeKind → Bool) :
    (a.ownTo d x projects .settled m n).filter (fun c => P c.kind) =
      (a.changesAs d x projects n ((Phase.settled.classify n).filter P)).filter
        fun c => decide (c.module.Same m) := by
  rw [ownTo, List.filter_comm, changesBy_classifier, filter_changesAs]

theorem ownTo_afterMutation : (a.ownTo d x projects .settled m n).filter (fun c => c.kind != .deleted) =
    a.ownTo d x projects .afterMutation m n := by
  rw [filter_ownTo_settled (· != .deleted), Phase.filter_classify_settled, ownTo, changesBy_classifier]

theorem ownTo_beforeMutation : (a.ownTo d x projects .settled m n).filter (fun c => c.kind == .deleted) =
    if n.isMove then [] else a.ownTo d x projects .beforeMutation m n := by
  rw [filter_ownTo_settled (· == .deleted), Phase.filter_classify_settled_deleted, ownTo, changesBy_classifier]
  cases n.isMove <;> rfl

/-- What a move comes to before it is applied are deletions of its source. -/
theorem mem_ownTo_moved {source target : Entry}
    (hc : c ∈ a.ownTo d x projects .beforeMutation m (.moved source target)) :
    c.kind = .deleted ∧ ∃ f ∈ x.files d source, Change.ofEntry? c.module f .deleted = some c := by
  rw [ownTo, changesBy_classifier] at hc
  exact mem_changesAs (List.mem_filter.1 hc).1

/-- What a move comes to when all is settled are creations of its target. -/
theorem mem_ownTo_settled_moved {source target : Entry}
    (hc : c ∈ a.ownTo d x projects .settled m (.moved source target)) :
    c.kind = .created ∧ ∃ f ∈ x.files d target, Change.ofEntry? c.module f .created = some c := by
  rw [ownTo, changesBy_classifier] at hc
  exact mem_changesAs (List.mem_filter.1 hc).1

end Answers

/-! ## The batches of the phases -/

theorem flatMap_filter {α β : Type} (p : α → Bool) (f : α → List β) (l : List α) :
    (l.filter p).flatMap f = l.flatMap fun b => if p b then f b else [] := by
  induction l with
  | nil => rfl
  | cons b l ih =>
    rw [List.filter_cons, List.flatMap_cons]
    split
    · rw [List.flatMap_cons, ih]
    · rw [ih, List.nil_append]

/-- What mutations come to when all is settled, after them, before those that are no moves, and before all of them. -/
structure PhasesAgree (a : Answers) (d : Disk) (x : Expander) (projects : List ProjectId) (ms : List Mutation)
    (settled after unmoved before : Batch) : Prop where
  written : ∀ m, (settled.changesTo m).filter (fun c => c.kind != .deleted) = after.changesTo m
  deleted : ∀ m, (settled.changesTo m).filter (fun c => c.kind == .deleted) = unmoved.changesTo m
  settled_eq : ∀ m, settled.changesTo m = ms.flatMap (a.ownTo d x projects .settled m)
  unmoved_eq : ∀ m, unmoved.changesTo m =
    (ms.filter fun n => !n.isMove).flatMap (a.ownTo d x projects .beforeMutation m)
  before_eq : ∀ m, before.changesTo m = ms.flatMap (a.ownTo d x projects .beforeMutation m)
  source : ∀ m source target, ∀ c ∈ a.ownTo d x projects .beforeMutation m (.moved source target),
    c.kind = .deleted ∧ ∃ f ∈ x.files d source, Change.ofEntry? c.module f .deleted = some c
  target : ∀ m source target, ∀ c ∈ a.ownTo d x projects .settled m (.moved source target),
    c.kind = .created ∧ ∃ f ∈ x.files d target, Change.ofEntry? c.module f .created = some c

/-- The batches of mutations when all is settled, after them, before those that are no moves, and before all of
them. -/
def gatherPhases (h : Host σ) (d : Disk) (x : Expander) (projects : List ProjectId) (ms : List Mutation) :
    StateM σ (Option Batch × Option Batch × Option Batch × Option Batch) := do
  let settled ← gather h d x projects Phase.settled.classifier ms
  let after ← gather h d x projects Phase.afterMutation.classifier ms
  let unmoved ← gather h d x projects Phase.beforeMutation.classifier (ms.filter fun n => !n.isMove)
  let before ← gather h d x projects Phase.beforeMutation.classifier ms
  pure (settled, after, unmoved, before)

theorem gatherPhases_inStep {τ : Type} {R : σ → τ → Prop} {lost : σ → Prop} {h : Host σ} {h' : Host τ}
    (hh : Host.InStep R lost h h') (d : Disk) (x : Expander) (projects : List ProjectId) (ms : List Mutation) :
    InStep R lost (gatherPhases h d x projects ms) (gatherPhases h' d x projects ms) := by
  unfold gatherPhases
  refine (gather_inStep hh d x projects _ ms).bind fun settled => ?_
  refine (gather_inStep hh d x projects _ ms).bind fun after => ?_
  refine (gather_inStep hh d x projects _ _).bind fun unmoved => ?_
  exact (gather_inStep hh d x projects _ ms).bind fun before => .pure _

section

variable {a : Answers} {d : Disk} {x : Expander} {projects : List ProjectId} {es : List Entry} {ms : List Mutation}

/-- The batch of a phase lists for a module what the mutations come to for it one by one. -/
theorem changesTo_ofChanges_phase (agree : a.SpellingsAgree es) {p : Phase}
    (hms : Answers.concerned d x p.classifier ms ⊆ es) (m : SourceModule) :
    (Batch.ofChanges (a.changes d x projects p.classifier [] ms)).changesTo m =
      ms.flatMap (a.ownTo d x projects p m) := by
  rw [Batch.changesTo_ofChanges, agree.changes_eq (List.nil_subset _) hms, List.filter_flatMap]
  rfl

/-- What is looked at after mutations is looked at when all is settled. -/
theorem concerned_afterMutation_subset :
    Answers.concerned d x Phase.afterMutation.classifier ms ⊆ Answers.concerned d x Phase.settled.classifier ms := by
  intro e he
  obtain ⟨n, hn, he⟩ := List.mem_flatMap.1 he
  refine List.mem_flatMap.2 ⟨n, hn, ?_⟩
  cases n with
  | deleted => exact absurd he List.not_mem_nil
  | _ => exact he

theorem phasesAgree_ofChanges (agree : a.SpellingsAgree (Answers.concerned d x Phase.settled.classifier ms ++
      Answers.concerned d x Phase.beforeMutation.classifier ms)) :
    let batch (p : Phase) (part : List Mutation) := Batch.ofChanges (a.changes d x projects p.classifier [] part)
    PhasesAgree a d x projects ms (batch .settled ms) (batch .afterMutation ms)
      (batch .beforeMutation (ms.filter fun n => !n.isMove)) (batch .beforeMutation ms) := by
  intro batch
  have hsettled (m : SourceModule) : (batch .settled ms).changesTo m = ms.flatMap (a.ownTo d x projects .settled m) :=
    changesTo_ofChanges_phase agree (List.subset_append_left _ _) m
  have hunmoved (m : SourceModule) : (batch .beforeMutation (ms.filter fun n => !n.isMove)).changesTo m =
      (ms.filter fun n => !n.isMove).flatMap (a.ownTo d x projects .beforeMutation m) := by
    refine changesTo_ofChanges_phase agree (List.Subset.trans ?_ (List.subset_append_right _ _)) m
    exact Answers.concerned_subset (List.filter_subset_self _)
  constructor
  · intro m
    have hafter : (batch .afterMutation ms).changesTo m = ms.flatMap (a.ownTo d x projects .afterMutation m) :=
      changesTo_ofChanges_phase agree
        (List.Subset.trans concerned_afterMutation_subset (List.subset_append_left _ _)) m
    rw [hsettled, hafter, List.filter_flatMap]
    exact List.flatMap_congr fun n _ => Answers.ownTo_afterMutation
  · intro m
    rw [hsettled, hunmoved, List.filter_flatMap, flatMap_filter]
    refine List.flatMap_congr fun n _ => ?_
    rw [Answers.ownTo_beforeMutation]
    cases n.isMove <;> rfl
  · exact hsettled
  · exact hunmoved
  · exact fun m => changesTo_ofChanges_phase agree (List.subset_append_right _ _) m
  · exact fun m source target c hc => Answers.mem_ownTo_moved hc
  · exact fun m source target c hc => Answers.mem_ownTo_settled_moved hc

end

/-- For every host whose answers are the same throughout and agree on the spellings of paths that are met, and for all
mutations: of what is gathered when all is settled, each module is told the creations and modifications that are
gathered after the mutations, and the deletions that are gathered before those that are no moves. What is gathered
before all of them has besides only the deletions of the sources of moves, and none of these comes of a move when all
is settled. -/
theorem gatherPhases_agree (h : Host σ) (d : Disk) (x : Expander) (projects : List ProjectId) (ms : List Mutation)
    (s : σ) (a : Answers) (still : AllOf a ((gatherPhases h.recorded d x projects ms).run (s, [])).2.2)
    (agree : a.SpellingsAgree (Answers.concerned d x Phase.settled.classifier ms ++
      Answers.concerned d x Phase.beforeMutation.classifier ms)) :
    ∃ settled after unmoved before : Batch,
      ((gatherPhases h d x projects ms).run s).1 = (some settled, some after, some unmoved, some before) ∧
        PhasesAgree a d x projects ms settled after unmoved before := by
  have hvalue : ((gatherPhases h d x projects ms).run s).1 = ((gatherPhases a.host d x projects ms).run ()).1 :=
    value_of_allOf (fun h => gatherPhases h d x projects ms)
      (fun hh => gatherPhases_inStep hh.gathering d x projects ms) still
  have hgather (p : Phase) (part : List Mutation) := gather_answers a d x projects p.classifier part
    fun n _ => p.classifier_ne_failed n
  rw [hvalue]
  unfold gatherPhases
  rw [hgather, hgather, hgather, hgather]
  exact ⟨_, _, _, _, rfl, phasesAgree_ofChanges agree⟩

/-- `/w/a` is moved to `/w/c`, the directory `/w` created, and `/w/a` deleted, which is spelled `/w//a`. -/
theorem gatherPhases_agree_watched :
    let a := Registry.sample.answers
    let x := Expander.ofInclusion .all
    let ms : List Mutation := [.moved (.file ⟨[47, 119, 47, 97]⟩) (.file ⟨[47, 119, 47, 99]⟩),
      .created (.directory ⟨[47, 119]⟩), .deleted (.file ⟨[47, 119, 47, 47, 97]⟩)]
    let start := WatchedRegistry.plain .sample
    AllOf a ((gatherPhases WatchedRegistry.host.recorded .sample x [⟨"p"⟩] ms).run (start, [])).2.2 ∧
    a.SpellingsAgree (Answers.concerned .sample x Phase.settled.classifier ms ++
      Answers.concerned .sample x Phase.beforeMutation.classifier ms) ∧
    ∃ settled after unmoved before : Batch,
      ((gatherPhases WatchedRegistry.host .sample x [⟨"p"⟩] ms).run start).1 =
        (some settled, some after, some unmoved, some before) ∧
      PhasesAgree a .sample x [⟨"p"⟩] ms settled after unmoved before ∧
      settled.size = 3 ∧ after.size = 2 ∧ unmoved.size = 1 ∧ before.size = 2 := by
  intro a x ms start
  have still : AllOf a ((gatherPhases WatchedRegistry.host.recorded .sample x [⟨"p"⟩] ms).run (start, [])).2.2 := by
    decide +kernel
  have agree : a.SpellingsAgree (Answers.concerned .sample x Phase.settled.classifier ms ++
      Answers.concerned .sample x Phase.beforeMutation.classifier ms) := by
    unfold Answers.SpellingsAgree
    decide +kernel
  obtain ⟨settled, after, unmoved, before, hrun, hphases⟩ :=
    gatherPhases_agree WatchedRegistry.host .sample x [⟨"p"⟩] ms start a still agree
  have sizes : ((gatherPhases WatchedRegistry.host .sample x [⟨"p"⟩] ms).run start).1.map
      (Option.map Batch.size) (Prod.map (Option.map Batch.size) (Prod.map (Option.map Batch.size)
        (Option.map Batch.size))) = (some 3, some 2, some 1, some 2) := by
    decide +kernel
  rw [hrun] at sizes
  simp only [Prod.map_apply, Option.map_some, Prod.mk.injEq, Option.some.injEq] at sizes
  exact ⟨still, agree, settled, after, unmoved, before, hrun, hphases, sizes⟩

end ChangeRelay
