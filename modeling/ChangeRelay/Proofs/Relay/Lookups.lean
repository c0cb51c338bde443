/-
Lookups of metadata. A host is asked about metadata when an entry is met and no answer is known for its path; the
answer then counts for every entry with the same path that is met later. So among the entries that are met, the first
with a path is looked up, and no other with that path is (`LookedUpOnce`). Each judgement keeps this
(`Judges.lookedUpOnce`), whether the entries come from questions to one filter (`askAll_run`) or from gathering, which
meets what the mutations that count are about and the files that expansions yield (`Passes.asksOnce`).
-/
import ChangeRelay.Proofs.Path.Components
import ChangeRelay.Proofs.Relay.Passes

namespace ChangeRelay

variable {σ : Type}

namespace Gathering

/-! ## What is met and looked up -/

/-- The lookup that a step is: the entry that the host is asked about, and its answer. -/
def Step.lookup? : Step → Option (Entry × Bool)
  | .asked (.isMetadata e answer) => some (e, answer)
  | _ => none

/-- The entry that is met in a step: what a mutation that counts is about, or a file that an expansion yields. -/
def Step.met? (i : Inclusion) (classify : Classifier) : Step → Option Entry
  | .took m =>
    match classify m with
    | .counts k => some (m.primary k)
    | _ => none
  | .visited v => v.included? i
  | _ => none

/-- The lookups on a log. -/
def lookups (log : List Step) : List (Entry × Bool) := log.filterMap Step.lookup?

/-- The entries that are met on a log. -/
def met (i : Inclusion) (classify : Classifier) (log : List Step) : List Entry := log.filterMap (Step.met? i classify)

/-- The first answer that was given for a path. -/
def firstAnswer? (ls : List (Entry × Bool)) (p : Path) : Option Bool :=
  (ls.find? fun l => decide (l.1.path.Same p)).map (·.2)

/-- Of the entries that are met, the first with each path is looked up and nothing else is. -/
structure LookedUpOnce (es : List Entry) (ls : List (Entry × Bool)) : Prop where
  sublist : (ls.map (·.1)).Sublist es
  once : ∀ e ∈ es, ∃ first answer, es.find? (fun f => decide (f.path.Same e.path)) = some first ∧
    ls.filter (fun l => decide (l.1.path.Same e.path)) = [(first, answer)]

variable {es : List Entry} {ls : List (Entry × Bool)} {e f : Entry}

theorem firstAnswer?_eq_none_iff {p : Path} : firstAnswer? ls p = none ↔ ∀ l ∈ ls, ¬ l.1.path.Same p := by
  simp [firstAnswer?, List.find?_eq_none]

theorem firstAnswer?_append {more : List (Entry × Bool)} {p : Path} {answer : Bool}
    (h : firstAnswer? ls p = some answer) : firstAnswer? (ls ++ more) p = some answer := by
  obtain ⟨l, hl, rfl⟩ := Option.map_eq_some_iff.1 h
  rw [firstAnswer?, List.find?_append, hl]
  rfl

theorem firstAnswer?_new {answer : Bool} (h : firstAnswer? ls e.path = none) :
    firstAnswer? (ls ++ [(e, answer)]) e.path = some answer := by
  rw [firstAnswer?, List.find?_append, Option.map_eq_none_iff.1 h]
  simp [Path.Same.refl]

namespace LookedUpOnce

theorem nil : LookedUpOnce [] [] := ⟨List.Sublist.slnil, fun _ he => absurd he List.not_mem_nil⟩

/-- The entry that is looked up for another one has its path. -/
theorem exists_lookup (h : LookedUpOnce es ls) (he : e ∈ es) : ∃ l ∈ ls, l.1.path.Same e.path := by
  obtain ⟨first, answer, -, hls⟩ := h.once e he
  have hmem : (first, answer) ∈ ls.filter fun l => decide (l.1.path.Same e.path) := by simp [hls]
  obtain ⟨hl, hsame⟩ := List.mem_filter.1 hmem
  exact ⟨_, hl, of_decide_eq_true hsame⟩

/-- An entry is met whose path has been looked up. -/
theorem known (h : LookedUpOnce es ls) {answer : Bool} (hknown : firstAnswer? ls e.path = some answer) :
    LookedUpOnce (es ++ [e]) ls := by
  refine ⟨h.sublist.trans (List.sublist_append_left _ _), fun f hf => ?_⟩
  have old (hf : f ∈ es) : ∃ first answer,
      (es ++ [e]).find? (fun g => decide (g.path.Same f.path)) = some first ∧
        ls.filter (fun l => decide (l.1.path.Same f.path)) = [(first, answer)] := by
    obtain ⟨first, answer, hfind, hls⟩ := h.once f hf
    exact ⟨first, answer, by rw [List.find?_append, hfind]; rfl, hls⟩
  rcases List.mem_append.1 hf with hf | hf
  · exact old hf
  · obtain rfl := List.mem_singleton.1 hf
    obtain ⟨l, hl, -⟩ := Option.map_eq_some_iff.1 hknown
    have hsame : l.1.path.Same f.path := by simpa using List.find?_some hl
    have hmem : l.1 ∈ es := h.sublist.subset (List.mem_map_of_mem (List.mem_of_find?_eq_some hl))
    obtain ⟨first, answer, hfind, hls⟩ := h.once l.1 hmem
    simp only [hsame.decide_congr] at hfind hls
    exact ⟨first, answer, by rw [List.find?_append, hfind]; rfl, hls⟩

/-- An entry is met whose path is new, and is looked up. -/
theorem new (h : LookedUpOnce es ls) (hnew : firstAnswer? ls e.path = none) (answer : Bool) :
    LookedUpOnce (es ++ [e]) (ls ++ [(e, answer)]) := by
  have hother := firstAnswer?_eq_none_iff.1 hnew
  constructor
  · rw [List.map_append]
    exact h.sublist.append (List.Sublist.refl [e])
  · intro f hf
    rcases List.mem_append.1 hf with hf | hf
    · obtain ⟨first, answer', hfind, hls⟩ := h.once f hf
      have hne : ¬ e.path.Same f.path := by
        intro hsame
        obtain ⟨l, hl, hlf⟩ := h.exists_lookup hf
        exact hother l hl (hlf.trans hsame.symm)
      refine ⟨first, answer', by rw [List.find?_append, hfind]; rfl, ?_⟩
      rw [List.filter_append, hls, List.filter_cons_of_neg (by simpa using hne), List.filter_nil, List.append_nil]
    · obtain rfl := List.mem_singleton.1 hf
      have hfresh : es.find? (fun g => decide (g.path.Same f.path)) = none := by
        refine List.find?_eq_none.2 fun g hg hsame => ?_
        obtain ⟨l, hl, hlg⟩ := h.exists_lookup hg
        exact hother l hl (hlg.trans (of_decide_eq_true hsame))
      have hnone : ls.filter (fun l => decide (l.1.path.Same f.path)) = [] :=
        List.filter_eq_nil_iff.2 fun l hl => by simpa using hother l hl
      refine ⟨f, answer, ?_, ?_⟩
      · rw [List.find?_append, hfresh]
        simp [Path.Same.refl]
      · rw [List.filter_append, hnone]
        simp [Path.Same.refl]

end LookedUpOnce

/-! ## One step of a log -/

section

variable {i : Inclusion} {classify : Classifier} {log before own rest : List Step} {answer : Bool}

/-- What is known about metadata are the first answers on the log. -/
theorem get?_ofLog (log : List Step) (p : Path) : (ofLog log).memo.get? p = firstAnswer? (lookups log) p := by
  have hjudged : ∀ st : Step, st.judged? = st.lookup?.map fun l => (l.1.path, l.2) := by
    intro st
    cases st with
    | asked reply => cases reply <;> rfl
    | _ => rfl
  have hlog : log.filterMap Step.judged? = (lookups log).map fun l => (l.1.path, l.2) := by
    rw [lookups, List.map_filterMap]
    exact List.filterMap_congr fun st _ => hjudged st
  unfold Memo.get? firstAnswer? ofLog
  rw [hlog, List.find?_map, Option.map_map]
  rfl

theorem lookups_append : lookups (log ++ own) = lookups log ++ lookups own := List.filterMap_append

theorem met_append : met i classify (log ++ own) = met i classify log ++ met i classify own := List.filterMap_append

/-- An entry that has been met is judged by a lookup that is known, or by a new one. -/
theorem Judges.lookedUpOnce (h : Judges before e answer own) (hbefore : LookedUpOnce es (lookups before)) :
    LookedUpOnce (es ++ [e]) (lookups (before ++ own)) ∧
      firstAnswer? (lookups (before ++ own)) e.path = some answer := by
  cases h with
  | known hknown =>
    rw [get?_ofLog] at hknown
    rw [List.append_nil]
    exact ⟨hbefore.known hknown, hknown⟩
  | asked hnew =>
    rw [get?_ofLog] at hnew
    rw [lookups_append]
    exact ⟨hbefore.new hnew answer, firstAnswer?_new hnew⟩

/-- What is met on a log is looked up once. -/
def AsksOnce (i : Inclusion) (classify : Classifier) (log : List Step) : Prop :=
  LookedUpOnce (met i classify log) (lookups log)

/-- Steps that meet nothing and ask nothing about metadata keep it. -/
theorem AsksOnce.append (h : AsksOnce i classify before) (hmet : met i classify own = [])
    (hlookups : lookups own = []) : AsksOnce i classify (before ++ own) := by
  rw [AsksOnce, met_append, lookups_append, hmet, hlookups, List.append_nil, List.append_nil]
  exact h

theorem AsksOnce.resolves {ps : List ProjectId} {m? : Option SourceModule} (h : AsksOnce i classify before)
    (resolves : Resolves e ps m? own) : AsksOnce i classify (before ++ own) := by
  have hquiet : met i classify own = [] ∧ lookups own = [] := by
    induction resolves with
    | nobody => exact ⟨rfl, rfl⟩
    | disposed _ ih => exact ih
    | claimed => exact ⟨rfl, rfl⟩
    | passed _ ih => exact ih
  exact h.append hquiet.1 hquiet.2

/-- Steps in which one entry is met keep it once that entry is judged. -/
theorem AsksOnce.judges (h : AsksOnce i classify before) {now : List Step} (hmet : met i classify now = [e])
    (hlookups : lookups now = []) (judged : Judges (before ++ now) e answer own) :
    AsksOnce i classify (before ++ now ++ own) := by
  have hknown : LookedUpOnce (met i classify before) (lookups (before ++ now)) := by
    rw [lookups_append, hlookups, List.append_nil]
    exact h
  have hown : met i classify own = [] := by
    rcases judged.own_eq with rfl | rfl <;> rfl
  rw [AsksOnce, met_append, met_append, hmet, hown, List.append_nil]
  exact (judged.lookedUpOnce hknown).1

/-! ## A whole log -/

variable {d : Disk} {x : Expander} {projects : List ProjectId} {o : SourceModule} {k : ChangeKind} {ahead : List Visit}
  {ms : List Mutation}

theorem met_visited (v : Visit) : met i classify [goesOn o, .visited v] = (v.included? i).toList := by
  have hv : Step.met? i classify (.visited v) = v.included? i := rfl
  have hgo : Step.met? i classify (goesOn o) = none := rfl
  rw [met, List.filterMap_cons_none hgo, List.filterMap_cons, hv]
  cases v.included? i <;> rfl

theorem Relays.asksOnce {now : List Step} (h : Relays o k (before ++ now) e own)
    (hbefore : AsksOnce i classify before) (hmet : met i classify now = [e]) (hlookups : lookups now = []) :
    AsksOnce i classify (before ++ now ++ own) := by
  cases h with
  | metadata judged => exact hbefore.judges hmet hlookups judged
  | outside judged => exact hbefore.judges hmet hlookups judged
  | added judged =>
    rw [← List.append_assoc]
    exact (hbefore.judges hmet hlookups judged).append rfl rfl

theorem Expands.asksOnce (h : Expands i o k before ahead own) (hbefore : AsksOnce i classify before) :
    AsksOnce i classify (before ++ own) := by
  induction h with
  | disposed => exact hbefore.append rfl rfl
  | finished => exact hbefore.append rfl rfl
  | @passed before rest v ahead left on ih =>
    have hmet : met i classify [goesOn o, .visited v] = [] := by rw [met_visited, left]; rfl
    have hall := ih (hbefore.append hmet rfl)
    rwa [List.append_assoc] at hall
  | @relayed before own rest e ahead included relays on ih =>
    have hmet : met i classify [goesOn o, .visited (.entry e)] = [e] := by
      rw [met_visited, Visit.included?_eq_some_iff.2 ⟨rfl, included⟩]
      rfl
    have hfile := relays.asksOnce hbefore hmet rfl
    rw [List.append_assoc] at hfile
    have hall := ih hfile
    rwa [List.append_assoc] at hall

theorem Adds.asksOnce {m : Mutation} (h : Adds d x projects k (before ++ [.took m]) (m.primary k) own)
    (hbefore : AsksOnce x.inclusion classify before) (verdict : classify m = .counts k) :
    AsksOnce x.inclusion classify (before ++ [.took m] ++ own) := by
  have hmet : met x.inclusion classify [.took m] = [m.primary k] := by simp [met, Step.met?, verdict]
  cases h with
  | metadata judged => exact hbefore.judges hmet rfl judged
  | unowned judged resolved =>
    rw [← List.append_assoc]
    exact (hbefore.judges hmet rfl judged).resolves resolved
  | @owned own asked files o judged resolved expanded =>
    have hasked := (hbefore.judges hmet rfl judged).resolves resolved
    have hfiles := expanded.asksOnce (hasked.append rfl rfl)
    simpa only [List.append_assoc, List.cons_append, List.nil_append] using hfiles

theorem Passes.asksOnce (h : Passes d x projects classify before ms own)
    (hbefore : AsksOnce x.inclusion classify before) : AsksOnce x.inclusion classify (before ++ own) := by
  induction h with
  | done => rwa [List.append_nil]
  | failed verdict => exact hbefore.append (by simp [met, Step.met?, verdict]) rfl
  | ignored verdict on ih =>
    have hall := ih (hbefore.append (by simp [met, Step.met?, verdict]) rfl)
    rwa [List.append_assoc] at hall
  | counts verdict adds on ih =>
    have hentry := adds.asksOnce hbefore verdict
    rw [List.append_assoc] at hentry
    have hall := ih hentry
    rwa [List.append_assoc] at hall

end

end Gathering

/-! ## Questions to one filter -/

namespace Memo

/-- A question to a filter: whether an entry is metadata, or whether it is relevant. -/
inductive Query where
  | metadata (e : Entry)
  | relevant (e : Entry)
  deriving DecidableEq, Repr

/-- The entry that is met with a question: of a directory nothing need be known to tell that it is not relevant. -/
def Query.met? : Query → Option Entry
  | .metadata e => some e
  | .relevant e => if e.isDirectory then none else some e

/-- The answer to a question by the lookups that have been made, if they answer it. -/
def Query.answer? (ls : List (Entry × Bool)) : Query → Option Bool
  | .metadata e => Gathering.firstAnswer? ls e.path
  | .relevant e => if e.isDirectory then some false else (Gathering.firstAnswer? ls e.path).map (!·)

/-- Asks a filter. -/
def ask (h : Host σ) (m : Memo) : Query → StateM σ (Bool × Memo)
  | .metadata e => m.isMetadata h e
  | .relevant e => m.isRelevant h e

/-- Asks a filter one question after the other. -/
def askAll (h : Host σ) : List Query → Memo → StateM σ (List Bool × Memo)
  | [], m => pure ([], m)
  | q :: qs, m => do
    let (answer, m) ← m.ask h q
    let (answers, m) ← askAll h qs m
    pure (answer :: answers, m)

/-- Hosts that answer in step lead to the same answers of a filter. -/
theorem askAll_inStep {τ : Type} {R : σ → τ → Prop} {lost : σ → Prop} {h : Host σ} {h' : Host τ}
    (hh : Host.InStep R lost h h') (qs : List Query) (m : Memo) :
    InStep R lost (askAll h qs m) (askAll h' qs m) := by
  induction qs generalizing m with
  | nil => exact .pure _
  | cons q qs ih =>
    have hask : InStep R lost (m.ask h q) (m.ask h' q) := by
      cases q with
      | metadata e => exact isMetadata_inStep hh m e
      | relevant e => exact isRelevant_inStep hh m e
    exact hask.bind fun r => (ih r.2).bind fun r' => .pure _

open Gathering (Step LookedUpOnce lookups firstAnswer? ofLog isMetadata_run firstAnswer?_append)

/-- The step in which the host is asked whether an entry is metadata. -/
def lookup (l : Entry × Bool) : Step := .asked (.isMetadata l.1 l.2)

theorem Query.answer?_append {ls more : List (Entry × Bool)} {q : Query} {answer : Bool}
    (h : q.answer? ls = some answer) : q.answer? (ls ++ more) = some answer := by
  cases q with
  | metadata e => exact firstAnswer?_append h
  | relevant e =>
    rw [Query.answer?] at h ⊢
    by_cases hdirectory : e.isDirectory = true
    · rwa [if_pos hdirectory] at h ⊢
    · rw [if_neg hdirectory] at h ⊢
      obtain ⟨metadata, hmetadata, rfl⟩ := Option.map_eq_some_iff.1 h
      rw [firstAnswer?_append hmetadata, Option.map_some]

variable {es : List Entry}

/-- One question looks an entry up, or leaves everything as it is. -/
theorem ask_run (h : Host σ) (q : Query) {s : σ × List Step} (hs : LookedUpOnce es (lookups s.2)) :
    ∃ answer t own, ((ofLog s.2).memo.ask h.logged q).run s = ((answer, (ofLog t.2).memo), t) ∧
      t.2 = s.2 ++ own ∧ own = (lookups own).map lookup ∧ LookedUpOnce (es ++ q.met?.toList) (lookups t.2) ∧
      q.answer? (lookups t.2) = some answer := by
  have judged (e : Entry) : ∃ answer t own,
      ((ofLog s.2).memo.isMetadata h.logged e).run s = ((answer, (ofLog t.2).memo), t) ∧ t.2 = s.2 ++ own ∧
        own = (lookups own).map lookup ∧ LookedUpOnce (es ++ [e]) (lookups t.2) ∧
        firstAnswer? (lookups t.2) e.path = some answer := by
    obtain ⟨answer, t, own, hrun, ht, -, hjudges⟩ := isMetadata_run h e s
    have hown : own = (lookups own).map lookup := by
      rcases hjudges.own_eq with rfl | rfl <;> rfl
    obtain ⟨honce, hanswer⟩ := hjudges.lookedUpOnce hs
    rw [← ht] at honce hanswer
    exact ⟨answer, t, own, hrun, ht, hown, honce, hanswer⟩
  cases q with
  | metadata e => exact judged e
  | relevant e =>
    by_cases hdirectory : e.isDirectory = true
    · refine ⟨false, s, [], ?_, (List.append_nil _).symm, rfl, ?_, ?_⟩
      · rw [ask, isRelevant, if_pos hdirectory]
        rfl
      · simpa [Query.met?, hdirectory] using hs
      · simp [Query.answer?, hdirectory]
    · obtain ⟨answer, t, own, hrun, ht, hown, honce, hanswer⟩ := judged e
      refine ⟨!answer, t, own, ?_, ht, hown, ?_, ?_⟩
      · rw [ask, isRelevant, if_neg hdirectory, Gathering.bind_run hrun]
        rfl
      · simpa [Query.met?, hdirectory] using honce
      · simp [Query.answer?, hdirectory, hanswer]

/-- All questions to one filter. -/
theorem askAll_run (h : Host σ) (qs : List Query) {s : σ × List Step} (hs : LookedUpOnce es (lookups s.2)) :
    ∃ answers t own, (askAll h.logged qs (ofLog s.2).memo).run s = ((answers, (ofLog t.2).memo), t) ∧
      t.2 = s.2 ++ own ∧ own = (lookups own).map lookup ∧
      LookedUpOnce (es ++ qs.filterMap Query.met?) (lookups t.2) ∧
      answers.map some = qs.map (Query.answer? (lookups t.2)) := by
  induction qs generalizing s es with
  | nil => exact ⟨[], s, [], rfl, (List.append_nil _).symm, rfl, by simpa using hs, rfl⟩
  | cons q qs ih =>
    obtain ⟨answer, t, own, hrun, ht, hown, honce, hanswer⟩ := ask_run h q hs
    obtain ⟨answers, u, rest, hruns, hu, hrest, honce, hanswers⟩ := ih honce
    refine ⟨answer :: answers, u, own ++ rest, ?_, ?_, ?_, ?_, ?_⟩
    · rw [askAll, Gathering.bind_run hrun, Gathering.bind_run hruns]
      rfl
    · rw [hu, ht, List.append_assoc]
    · rw [Gathering.lookups_append, List.map_append, ← hown, ← hrest]
    · rwa [List.append_assoc, ← Gathering.filterMap_cons_toList] at honce
    · rw [List.map_cons, List.map_cons, hanswers, hu, Gathering.lookups_append, Query.answer?_append hanswer]

end Memo

open Gathering (Passes LookedUpOnce lookups met)

/-- Whatever a host answers: of the entries about which one filter is asked, the first with each path is looked up, and
nothing else is asked; the answer that it gets there answers every question about that path, and a directory is not
relevant without any lookup. While changes are gathered, the first entry with each path is looked up among those that
the mutations that count are about and those that expansions yield, and about no other entry the host is asked
whether it is metadata. -/
theorem isMetadata_asked_once (h : Host σ) (s : σ) :
    (∀ qs : List Memo.Query,
      let r := (Memo.askAll h.logged qs .empty).run (s, [])
      (Memo.askAll h qs .empty).run s = (r.1, r.2.1) ∧
      r.2.2 = (lookups r.2.2).map Memo.lookup ∧
      LookedUpOnce (qs.filterMap Memo.Query.met?) (lookups r.2.2) ∧
      r.1.1.map some = qs.map (Memo.Query.answer? (lookups r.2.2))) ∧
    (∀ (m : Memo) (e : Entry), e.isDirectory = true → m.isRelevant h e = pure (false, m)) ∧
    ∀ (d : Disk) (x : Expander) (projects : List ProjectId) (classify : Classifier) (ms : List Mutation),
      let r := (gatherLogged h d x projects classify ms).run (s, [])
      (gather h d x projects classify ms).run s = (r.1, r.2.1) ∧
      Passes d x projects classify [] ms r.2.2 ∧
      LookedUpOnce (met x.inclusion classify r.2.2) (lookups r.2.2) := by
  refine ⟨?_, ?_, ?_⟩
  · intro qs r
    obtain ⟨answers, t, own, hrun, ht, hown, honce, hanswers⟩ := Memo.askAll_run h qs (s := (s, [])) .nil
    have hr : r = ((answers, (Gathering.ofLog t.2).memo), t) := hrun
    have hstep := Memo.askAll_inStep (logged_inStep h) qs .empty
    rw [List.nil_append] at ht
    refine ⟨Prod.ext (hstep.value_eq (s := (s, [])) rfl).symm (hstep.related (s := (s, [])) rfl).symm, ?_⟩
    rw [hr]
    exact ⟨by rw [ht]; exact hown, honce, hanswers⟩
  · intro m e hdirectory
    rw [Memo.isRelevant, if_pos hdirectory]
  · intro d x projects classify ms r
    have hpasses := (gatherLogged_passes h d x projects classify ms s).2
    exact ⟨gatherLogged_run h d x projects classify ms (s, []), hpasses, hpasses.asksOnce .nil⟩

end ChangeRelay
