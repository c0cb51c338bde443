/-
Disposal while changes are gathered. Before each visit of an expansion it is asked whether the
project of the owner is disposed; the first answer that it is ends the expansion, and the next
mutation is taken as if nothing had happened.

So a change is added only after the answer, to a question about its project since the visit before,
that it is not disposed, and none is added to a project from which on the answer is always that it
is (`HeedsDisposal`). All that has been added is in the batch, and a run sends it to the engine that
was told for the project at the start.
-/
import ChangeRelay.Proofs.Relay.Passes
import ChangeRelay.Proofs.Relay.Routing

namespace ChangeRelay

variable {σ α : Type}

/-- Before an entry of a list that stands in no part in front, that part stands whole. -/
theorem split_of_not_mem {a : α} : ∀ {front back pre post : List α},
    front ++ back = pre ++ a :: post → a ∉ front →
      ∃ between, pre = front ++ between ∧ back = between ++ a :: post
  | [], _, pre, _, h, _ => ⟨pre, rfl, h⟩
  | b :: front, _, [], _, h, ha => by
    rw [List.cons_append, List.nil_append, List.cons_eq_cons] at h
    exact absurd (h.1 ▸ List.mem_cons_self) ha
  | b :: front, back, c :: pre, post, h, ha => by
    rw [List.cons_append, List.cons_append, List.cons_eq_cons] at h
    obtain ⟨rfl, h⟩ := h
    obtain ⟨between, rfl, hback⟩ := split_of_not_mem h fun hmem => ha (List.mem_cons_of_mem b hmem)
    exact ⟨between, rfl, hback⟩

namespace Gathering

variable {d : Disk} {x : Expander} {projects : List ProjectId} {classify : Classifier}
  {i : Inclusion} {o : SourceModule} {k : ChangeKind} {e : Entry} {p : ProjectId} {st : Step}
  {before own log log' pre post : List Step} {ahead : List Visit} {ms : List Mutation}

/-! ## It is asked first -/

/-- Before a change is added, it has been asked since the visit before whether its project is
disposed, and it is not; then its file has been visited. -/
def AsksFirst (log : List Step) : Prop := ∀ pre c post, log = pre ++ .added c :: post →
  ∃ before e mid, pre = before ++ goesOn c.module :: .visited (.entry e) :: mid ∧
    Change.ofEntry? c.module e c.kind = some c ∧ (mid = [] ∨ mid = [.asked (.isMetadata e false)])

namespace AsksFirst

theorem of_not_added (h : ∀ c, .added c ∉ log) : AsksFirst log := by
  rintro pre c post rfl
  exact absurd (List.mem_append_right _ List.mem_cons_self) (h c)

theorem append (h : AsksFirst log) (h' : AsksFirst log') : AsksFirst (log ++ log') := by
  intro pre c post heq
  rcases List.append_eq_append_iff.1 heq with ⟨between, rfl, hlog'⟩ | ⟨between, hlog, hpost⟩
  · obtain ⟨before, e, mid, rfl, hmid⟩ := h' between c post hlog'
    exact ⟨log ++ before, e, mid, by rw [List.append_assoc], hmid⟩
  · cases between with
    | nil =>
      -- the change would be the first step of `log'`, and nothing has been asked before
      obtain ⟨before, _, _, hbefore, -⟩ := h' [] c post hpost.symm
      cases before <;> cases hbefore
    | cons st between =>
      obtain ⟨rfl, -⟩ := List.cons_eq_cons.1 hpost
      exact h pre c between hlog

/-- A change that is added at the end, when it has been asked and visited right before. -/
theorem of_last {c : Change} {mid : List Step}
    (not_added : ∀ c', .added c' ∉ goesOn c.module :: .visited (.entry e) :: mid)
    (change : Change.ofEntry? c.module e c.kind = some c)
    (hmid : mid = [] ∨ mid = [.asked (.isMetadata e false)]) :
    AsksFirst (goesOn c.module :: .visited (.entry e) :: mid ++ [.added c]) := by
  intro pre c' post heq
  obtain ⟨between, rfl, hback⟩ := split_of_not_mem heq (not_added c')
  -- only the last step adds a change
  cases between with
  | nil =>
    cases hback
    exact ⟨[], e, mid, List.append_nil _, change, hmid⟩
  | cons st between =>
    have := congrArg List.length hback
    simp at this

end AsksFirst

theorem visit_not_added (o : SourceModule) (v : Visit) (c : Change) :
    .added c ∉ [goesOn o, .visited v] := by
  intro hc
  rcases List.mem_cons.1 hc with hc | hc
  · cases hc
  · cases List.mem_singleton.1 hc

theorem Relays.asksFirst (h : Relays o k before e own) :
    AsksFirst (goesOn o :: .visited (.entry e) :: own) := by
  have judged_not_added : ∀ {answer own}, Judges before e answer own → ∀ c, .added c ∉ own := by
    intro answer own judged c hc
    cases judged.mem hc
  cases h with
  | metadata judged =>
    exact (AsksFirst.of_not_added (visit_not_added o _)).append (.of_not_added (judged_not_added judged))
  | outside judged =>
    exact (AsksFirst.of_not_added (visit_not_added o _)).append (.of_not_added (judged_not_added judged))
  | @added own c judged change =>
    obtain ⟨rfl, rfl, -⟩ := Change.of_ofEntry? change
    refine AsksFirst.of_last (fun c' hc => ?_) change judged.own_eq
    rcases List.mem_append.1 (show _ ∈ [goesOn c.module, .visited (.entry e)] ++ own from hc)
      with hc | hc
    · exact visit_not_added c.module _ c' hc
    · exact judged_not_added judged c' hc

theorem Expands.asksFirst (h : Expands i o k before ahead own) : AsksFirst own := by
  induction h with
  | disposed => exact .of_not_added fun c hc => nomatch List.mem_singleton.1 hc
  | finished => exact .of_not_added fun c hc => nomatch List.mem_singleton.1 hc
  | @passed _ rest v _ _ _ ih =>
    exact (AsksFirst.of_not_added (visit_not_added o v)).append ih
  | relayed _ relays _ ih => exact relays.asksFirst.append ih

theorem Adds.asksFirst (h : Adds d x projects k before e own) : AsksFirst own := by
  have judged_asksFirst : ∀ {answer own}, Judges before e answer own → AsksFirst own :=
    fun judged => .of_not_added fun c hc => nomatch judged.mem hc
  have resolved_asksFirst : ∀ {m? own}, Resolves e projects m? own → AsksFirst own :=
    fun resolved => .of_not_added fun c hc => nomatch resolved.mem hc
  cases h with
  | metadata judged => exact judged_asksFirst judged
  | unowned judged resolved =>
    exact (judged_asksFirst judged).append (resolved_asksFirst resolved)
  | @owned own asked files o judged resolved expanded =>
    have hbegun : AsksFirst [.expanding o e] := .of_not_added fun c hc => nomatch List.mem_singleton.1 hc
    exact ((judged_asksFirst judged).append (resolved_asksFirst resolved)).append
      (hbegun.append expanded.asksFirst)

theorem Passes.asksFirst (h : Passes d x projects classify before ms log) : AsksFirst log := by
  have took_asksFirst : ∀ m, AsksFirst [.took m] :=
    fun m => .of_not_added fun c hc => nomatch List.mem_singleton.1 hc
  induction h with
  | done => exact .of_not_added fun c hc => nomatch hc
  | failed => exact took_asksFirst _
  | ignored _ _ ih => exact (took_asksFirst _).append ih
  | counts _ adds _ ih => exact ((took_asksFirst _).append adds.asksFirst).append ih

/-- No change is added to a project from the question on from which all answers are that it is
disposed. -/
theorem AsksFirst.silent (h : AsksFirst log) (hlog : log = pre ++ .asked (.isDisposed p true) :: post)
    (always : ∀ answer, .asked (.isDisposed p answer) ∈ post → answer = true) :
    ∀ c, .added c ∈ post → c.module.project ≠ p := by
  rintro c hc rfl
  obtain ⟨post₁, post₂, rfl⟩ := List.append_of_mem hc
  obtain ⟨before, e, mid, hbefore, -, hmid⟩ :=
    h (pre ++ .asked (.isDisposed c.module.project true) :: post₁) c post₂
      (by rw [hlog, List.append_assoc, List.cons_append])
  have hblock : .asked (.isDisposed c.module.project true) ∉
      goesOn c.module :: .visited (.entry e) :: mid := by
    rcases hmid with rfl | rfl <;> simp [goesOn]
  -- so the question before the change comes after the one from which on `p` is disposed
  rcases List.append_eq_append_iff.1 hbefore with ⟨between, -, hpost⟩ | ⟨between, -, hmem⟩
  · cases between with
    | nil =>
      rw [List.nil_append] at hpost
      exact hblock (hpost ▸ List.mem_cons_self)
    | cons st between =>
      have hgoesOn : goesOn c.module ∈ post₁ := by
        rw [(List.cons_eq_cons.1 hpost).2]
        exact List.mem_append_right _ List.mem_cons_self
      cases always false (List.mem_append_left _ hgoesOn)
  · exact hblock (hmem ▸ List.mem_append_right _ List.mem_cons_self)

/-! ## Where an expansion ends -/

namespace Expands

variable (h : Expands i o k before ahead own)
include h

/-- An expansion is over before the next begins and before the next mutation is taken. -/
theorem inside (hst : st ∈ own) : (∀ m, st ≠ .took m) ∧ ∀ o e, st ≠ .expanding o e := by
  induction h with
  | disposed => rw [List.mem_singleton.1 hst]; exact ⟨nofun, nofun⟩
  | finished => rw [List.mem_singleton.1 hst]; exact ⟨nofun, nofun⟩
  | passed _ _ ih =>
    rcases List.mem_cons.1 hst with rfl | hst
    · exact ⟨nofun, nofun⟩
    rcases List.mem_cons.1 hst with rfl | hst
    · exact ⟨nofun, nofun⟩
    · exact ih hst
  | relayed _ relays _ ih =>
    rcases List.mem_append.1 hst with hst | hst
    · rcases List.mem_cons.1 hst with rfl | hst
      · exact ⟨nofun, nofun⟩
      rcases List.mem_cons.1 hst with rfl | hst
      · exact ⟨nofun, nofun⟩
      rcases relays.mem hst with ⟨_, rfl⟩ | ⟨_, rfl⟩ <;> exact ⟨nofun, nofun⟩
    · exact ih hst

/-- Nothing of an expansion follows the answer that a project is disposed, which is that of its
owner. -/
theorem ends (heq : own = pre ++ .asked (.isDisposed p true) :: post) :
    p = o.project ∧ post = [] := by
  induction h generalizing pre with
  | disposed =>
    cases pre with
    | nil => cases heq; exact ⟨rfl, rfl⟩
    | cons st pre => cases pre <;> cases heq
  | finished =>
    cases pre with
    | nil => cases heq
    | cons st pre => cases pre <;> cases heq
  | @passed _ rest v _ _ _ ih =>
    -- before this visit the answer was to go on, so the answer in question comes after it
    have hfront : .asked (.isDisposed p true) ∉ [goesOn o, .visited v] := by simp [goesOn]
    have heq' : [goesOn o, .visited v] ++ rest = _ := heq
    obtain ⟨between, -, hrest⟩ := split_of_not_mem heq' hfront
    exact ih hrest
  | @relayed _ own rest e _ _ relays _ ih =>
    have hfront : .asked (.isDisposed p true) ∉ goesOn o :: .visited (.entry e) :: own := by
      intro hmem
      rcases List.mem_cons.1 hmem with hmem | hmem
      · cases hmem
      rcases List.mem_cons.1 hmem with hmem | hmem
      · cases hmem
      rcases relays.mem hmem with ⟨_, hmem⟩ | ⟨_, hmem⟩ <;> cases hmem
    obtain ⟨between, -, hrest⟩ := split_of_not_mem heq hfront
    exact ih hrest

/-- The visits of an expansion are those that lie ahead, in their order, up to its end; where it is
not ended, they are all. -/
theorem visits : own.filterMap Step.visited? <+: ahead ∧
    (endsFor o ∉ own → own.filterMap Step.visited? = ahead) := by
  induction h with
  | disposed => exact ⟨List.nil_prefix, fun hnot => absurd (List.mem_singleton_self _) hnot⟩
  | finished => exact ⟨List.prefix_rfl, fun _ => rfl⟩
  | @passed _ rest v ahead _ _ ih =>
    have hvisits : (goesOn o :: .visited v :: rest).filterMap Step.visited? =
        v :: rest.filterMap Step.visited? := rfl
    rw [hvisits]
    refine ⟨List.cons_prefix_cons.2 ⟨rfl, ih.1⟩, fun hnot => ?_⟩
    rw [ih.2 fun hmem => hnot (List.mem_cons_of_mem _ (List.mem_cons_of_mem _ hmem))]
  | @relayed _ own rest e ahead _ relays _ ih =>
    have hown : own.filterMap Step.visited? = [] := by
      refine List.filterMap_eq_nil_iff.2 fun st hst => ?_
      rcases relays.mem hst with ⟨_, rfl⟩ | ⟨_, rfl⟩ <;> rfl
    have hvisits : (goesOn o :: .visited (.entry e) :: own ++ rest).filterMap Step.visited? =
        .entry e :: rest.filterMap Step.visited? := by
      rw [List.filterMap_append]
      show .entry e :: own.filterMap Step.visited? ++ _ = _
      rw [hown]
      rfl
    rw [hvisits]
    refine ⟨List.cons_prefix_cons.2 ⟨rfl, ih.1⟩, fun hnot => ?_⟩
    rw [ih.2 fun hmem => hnot (List.mem_append_right _ hmem)]

end Expands

/-- The log of what is left begins with the next mutation that is taken, if there is one. -/
def NextTaken (log : List Step) : Prop := log = [] ∨ ∃ m rest, log = .took m :: rest

theorem Passes.nextTaken (h : Passes d x projects classify before ms log) : NextTaken log := by
  cases h with
  | done => exact .inl rfl
  | failed => exact .inr ⟨_, _, rfl⟩
  | ignored => exact .inr ⟨_, _, rfl⟩
  | counts => exact .inr ⟨_, _, rfl⟩

/-- In what is done to an entry at most one expansion begins, and it goes by its rules. -/
theorem Adds.parts (h : Adds d x projects k before e own) :
    (∀ o e', .expanding o e' ∉ own) ∨ ∃ front o before files,
      own = front ++ .expanding o e :: files ∧ (∀ o e', .expanding o e' ∉ front) ∧
      Expands x.inclusion o k before (x.visits d e) files := by
  have asks_only : ∀ {answer own m? asked}, Judges before e answer own →
      Resolves e projects m? asked → ∀ o e', .expanding o e' ∉ own ++ asked := by
    intro answer own m? asked judged resolved o e' hmem
    rcases List.mem_append.1 hmem with hmem | hmem
    · cases judged.mem hmem
    · obtain ⟨reply, hreply⟩ := resolved.mem hmem
      cases hreply
  cases h with
  | metadata judged => exact .inl fun o e' hmem => nomatch judged.mem hmem
  | unowned judged resolved => exact .inl (asks_only judged resolved)
  | owned judged resolved expanded =>
    exact .inr ⟨_, _, _, _, rfl, asks_only judged resolved, expanded⟩

/-- An expansion that begins goes by its rules, and then the next mutation is taken. -/
theorem Passes.expansion (h : Passes d x projects classify before ms log)
    (heq : log = pre ++ .expanding o e :: post) :
    ∃ k before own rest, post = own ++ rest ∧ NextTaken rest ∧
      Expands x.inclusion o k before (x.visits d e) own := by
  induction h generalizing pre with
  | done => cases pre <;> cases heq
  | failed =>
    cases pre with
    | nil => cases heq
    | cons st pre => cases pre <;> cases heq
  | @ignored _ rest m _ _ _ ih =>
    have hfront : .expanding o e ∉ [Step.took m] := by simp
    have heq' : [.took m] ++ rest = _ := heq
    obtain ⟨between, -, hrest⟩ := split_of_not_mem heq' hfront
    exact ih hrest
  | @counts _ own rest m _ k _ adds on ih =>
    rcases adds.parts with hown | ⟨front, o', before, files, rfl, hfront, hfiles⟩
    · have hown' : .expanding o e ∉ .took m :: own := by
        rw [List.mem_cons, not_or]
        exact ⟨nofun, hown o e⟩
      obtain ⟨between, -, hrest⟩ := split_of_not_mem heq hown'
      exact ih hrest
    · have hfront' : .expanding o e ∉ .took m :: front := by
        rw [List.mem_cons, not_or]
        exact ⟨nofun, hfront o e⟩
      have hsplit : (.took m :: front) ++ (.expanding o' (m.primary k) :: (files ++ rest)) =
          pre ++ .expanding o e :: post := by
        rw [← heq]
        simp only [List.cons_append, List.append_assoc]
      obtain ⟨between, -, hback⟩ := split_of_not_mem hsplit hfront'
      -- it is the expansion that begins here or, as none begins inside another, that of a mutation
      -- taken later
      cases between with
      | nil =>
        cases hback
        exact ⟨k, before, files, rest, rfl, on.nextTaken, hfiles⟩
      | cons st between =>
        obtain ⟨-, hback⟩ := List.cons_eq_cons.1 hback
        obtain ⟨between', -, hrest⟩ :=
          split_of_not_mem hback fun hmem => (hfiles.inside hmem).2 o e rfl
        exact ih hrest

theorem Adds.not_took (h : Adds d x projects k before e own) (m : Mutation) : .took m ∉ own := by
  intro hmem
  cases h with
  | metadata judged => cases judged.mem hmem
  | unowned judged resolved =>
    rcases List.mem_append.1 hmem with hmem | hmem
    · cases judged.mem hmem
    · cases (resolved.mem hmem).choose_spec
  | owned judged resolved expanded =>
    rcases List.mem_append.1 hmem with hmem | hmem
    · rcases List.mem_append.1 hmem with hmem | hmem
      · cases judged.mem hmem
      · cases (resolved.mem hmem).choose_spec
    · rcases List.mem_cons.1 hmem with hmem | hmem
      · cases hmem
      · exact (expanded.inside hmem).1 m rfl

/-- All mutations are taken in their order, unless one cannot be classified. -/
theorem Passes.took_eq (h : Passes d x projects classify before ms log)
    (told : ∀ m ∈ ms, classify m ≠ .failed) : log.filterMap Step.took? = ms := by
  induction h with
  | done => rfl
  | @failed _ m _ verdict => exact absurd verdict (told m List.mem_cons_self)
  | @ignored _ rest m ms _ _ ih =>
    have htook : (.took m :: rest).filterMap Step.took? = m :: rest.filterMap Step.took? := rfl
    rw [htook, ih fun n hn => told n (List.mem_cons_of_mem m hn)]
  | @counts _ own rest m ms _ _ adds _ ih =>
    have hown : own.filterMap Step.took? = [] := by
      refine List.filterMap_eq_nil_iff.2 fun st hst => ?_
      cases st with
      | took n => exact absurd hst (adds.not_took n)
      | _ => rfl
    have htook : (.took m :: own ++ rest).filterMap Step.took? = m :: rest.filterMap Step.took? := by
      rw [List.filterMap_append]
      show m :: own.filterMap Step.took? ++ _ = _
      rw [hown]
      rfl
    rw [htook, ih fun n hn => told n (List.mem_cons_of_mem m hn)]

end Gathering

/-! ## Gathering and runs -/

open Gathering

/-- A log heeds disposal: to no project is a change added when it is disposed. -/
structure HeedsDisposal (d : Disk) (x : Expander) (log : List Step) : Prop where
  /-- It has been asked about its project right before the file of a change is visited. -/
  asksFirst : AsksFirst log
  /-- The first answer that the project is disposed ends an expansion; else all is visited. -/
  ends : ∀ pre o e post, log = pre ++ .expanding o e :: post → ∃ own rest, post = own ++ rest ∧
    NextTaken rest ∧ (∀ m, .took m ∉ own) ∧
    (∀ before p after, own = before ++ .asked (.isDisposed p true) :: after →
      p = o.project ∧ after = []) ∧
    own.filterMap Step.visited? <+: x.visits d e ∧
    (endsFor o ∉ own → own.filterMap Step.visited? = x.visits d e)
  /-- Once all answers are that a project is disposed, no change is added to it. -/
  silent : ∀ pre p post, log = pre ++ .asked (.isDisposed p true) :: post →
    (∀ answer, .asked (.isDisposed p answer) ∈ post → answer = true) →
    ∀ c, .added c ∈ post → c.module.project ≠ p

theorem Gathering.Passes.heedsDisposal {d : Disk} {x : Expander} {projects : List ProjectId}
    {classify : Classifier} {before log : List Step} {ms : List Mutation}
    (h : Passes d x projects classify before ms log) : HeedsDisposal d x log where
  asksFirst := h.asksFirst
  ends pre o e post heq := by
    obtain ⟨k, before, own, rest, hpost, hrest, hexpands⟩ := h.expansion heq
    exact ⟨own, rest, hpost, hrest, fun m hm => (hexpands.inside hm).1 m rfl,
      fun _ _ _ => hexpands.ends, hexpands.visits⟩
  silent _ _ _ := h.asksFirst.silent

/-- Gathering and runs with a host that may answer differently about disposal from one question to
the next. A change is added only when it has just been asked about its project; the first answer
that it is disposed ends an expansion for good, and then the next mutation is taken, to which the
same is done as ever. What has been added stays in the batch, and a run sends it to the engine that
was captured for its project at the start, if there was one. -/
theorem gather_heedsDisposal (h : Host σ) (d : Disk) (x : Expander) (classify : Classifier)
    (ms : List Mutation) :
    (∀ projects s,
      let r := (gatherLogged h d x projects classify ms).run (s, [])
      (gather h d x projects classify ms).run s = (r.1, r.2.1) ∧
      r.1 = (if ∃ m ∈ ms, classify m = .failed then none
        else some (.ofChanges (r.2.2.filterMap Step.added?))) ∧
      ((∀ m ∈ ms, classify m ≠ .failed) → r.2.2.filterMap Step.took? = ms) ∧
      Passes d x projects classify [] ms r.2.2 ∧ HeedsDisposal d x r.2.2) ∧
    ∀ s,
      let start := h.openProjects.run s
      let captured := (Router.ofProjects h start.1).run start.2
      let r := (gatherLogged h d x start.1 classify ms).run (captured.2, [])
      ((run h d x classify ms).run s).1 = r.1.map (Outcome.ofBatch captured.1 ms.length) ∧
      ∀ o ∈ ((run h d x classify ms).run s).1, ∀ c, .added c ∈ r.2.2 →
        (∀ e, captured.1.engine? c.module.project = some e →
          ∃ call ∈ o.calls, call.engine = e ∧ call.module.Same c.module ∧ c ∈ call.changes) ∧
        (captured.1.engine? c.module.project = none → ∀ call ∈ o.calls, c ∉ call.changes) := by
  constructor
  · intro projects s r
    have hrun : (gather h d x projects classify ms).run s = (r.1, r.2.1) :=
      gatherLogged_run h d x projects classify ms (s, [])
    obtain ⟨hbatch, hpasses⟩ := gatherLogged_passes h d x projects classify ms s
    refine ⟨hrun, ?_, hpasses.took_eq, hpasses, hpasses.heedsDisposal⟩
    -- when there is a batch at all does not depend on the host
    have hnone := gather_eq_none_iff h d x projects classify ms s
    rw [hrun] at hnone
    split
    · rename_i hfailed
      exact hnone.2 hfailed
    · rename_i hfailed
      cases hr : r.1 with
      | none => exact absurd (hnone.1 hr) hfailed
      | some b => rw [hbatch b hr]
  · intro s start captured r
    have hgather := gatherLogged_run h d x start.1 classify ms (captured.2, [])
    have hrun : ((run h d x classify ms).run s).1 =
        r.1.map (Outcome.ofBatch captured.1 ms.length) := by
      unfold run
      rw [run_bind, run_bind, run_bind, hgather]
      rfl
    refine ⟨hrun, fun o ho c hc => ?_⟩
    rw [hrun] at ho
    obtain ⟨b, hb, rfl⟩ := Option.map_eq_some_iff.1 ho
    obtain ⟨hbatch, -⟩ := gatherLogged_passes h d x start.1 classify ms captured.2
    rw [hbatch b hb]
    exact captured.1.mem_dispatch_ofChanges (List.mem_filterMap.2 ⟨_, hc, rfl⟩)

/-- A directory `/w` was created, and then the file `/v/b`. -/
def Mutation.twoProjects : List Mutation :=
  [.created (.directory ⟨[47, 119]⟩), .created (.file ⟨[47, 118, 47, 98]⟩)]

/-- A project that is lost after one of two files has been visited gets the change to this file, and
the other project is served as ever. -/
theorem gather_heedsDisposal_losing :
    let c : Change := ⟨⟨⟨"m"⟩, ⟨"p"⟩, ⟨[47, 119]⟩⟩, .created, "a", ⟨⟨[47, 119, 47, 97]⟩, false⟩⟩
    ∃ o, ((run WatchedRegistry.host .sample (.ofInclusion .all) Phase.settled.classifier
        Mutation.twoProjects).run (.losing (some ⟨"f"⟩))).1 = some o ∧
      (∃ call ∈ o.calls, call.engine = ⟨"e"⟩ ∧ call.module.Same c.module ∧ c ∈ call.changes) ∧
      o.calls.map (fun call => (call.engine, call.changes.length)) = [(⟨"e"⟩, 1), (⟨"f"⟩, 1)] := by
  intro c
  obtain ⟨o, ho, hcalls⟩ : ∃ o, ((run WatchedRegistry.host .sample (.ofInclusion .all)
      Phase.settled.classifier Mutation.twoProjects).run (.losing (some ⟨"f"⟩))).1 = some o ∧
      o.calls.map (fun call => (call.engine, call.changes.length)) = [(⟨"e"⟩, 1), (⟨"f"⟩, 1)] := by
    refine Option.map_eq_some_iff.1 (?_ : Option.map _ _ = some _)
    decide +kernel
  obtain ⟨-, hruns⟩ := gather_heedsDisposal WatchedRegistry.host .sample (.ofInclusion .all)
    Phase.settled.classifier Mutation.twoProjects
  obtain ⟨-, hsent⟩ := hruns (.losing (some ⟨"f"⟩))
  have hsent := (hsent o ho c (by decide +kernel)).1 ⟨"e"⟩ (by decide +kernel)
  exact ⟨o, ho, hsent, hcalls⟩

end ChangeRelay
