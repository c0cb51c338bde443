/-
The rules by which a log of gathering goes. Each mutation is taken in its turn; if it counts, its
entry is judged, resolved and expanded for its owner (`Adds`), by what is known then and by what the
host answers, and so is the next (`Passes`). What is gathered and known is always what can be read
off the log (`addObserved_passes`), so the batch in the end is that of the changes on it.
-/
import ChangeRelay.Proofs.Relay.Contributions
import ChangeRelay.Proofs.Relay.Log
import ChangeRelay.Proofs.Walk.Yields

namespace ChangeRelay

variable {σ α β : Type}

namespace Gathering

/-! ## The rules of a log -/

/-- An entry is judged: what is known counts, and else the host is asked. -/
inductive Judges (before : List Step) (e : Entry) : Bool → List Step → Prop
  | known {answer : Bool} (known : (ofLog before).memo.get? e.path = some answer) :
    Judges before e answer []
  | asked {answer : Bool} (new : (ofLog before).memo.get? e.path = none) :
    Judges before e answer [.asked (.isMetadata e answer)]

/-- An entry is resolved: of the projects that are not disposed, the first that claims it has it. -/
inductive Resolves (e : Entry) : List ProjectId → Option SourceModule → List Step → Prop
  | nobody : Resolves e [] none []
  | disposed {p : ProjectId} {ps : List ProjectId} {m? : Option SourceModule} {rest : List Step}
    (on : Resolves e ps m? rest) : Resolves e (p :: ps) m? (.asked (.isDisposed p true) :: rest)
  | claimed {p : ProjectId} {ps : List ProjectId} {m : SourceModule} :
    Resolves e (p :: ps) (some m)
      [.asked (.isDisposed p false), .asked (.findModule p e (some m))]
  | passed {p : ProjectId} {ps : List ProjectId} {m? : Option SourceModule} {rest : List Step}
    (on : Resolves e ps m? rest) :
    Resolves e (p :: ps) m?
      (.asked (.isDisposed p false) :: .asked (.findModule p e none) :: rest)

/-- A file is relayed to a module, unless it is metadata or lies outside. -/
inductive Relays (o : SourceModule) (k : ChangeKind) (before : List Step) (e : Entry) :
    List Step → Prop
  | metadata {own : List Step} (judged : Judges before e true own) : Relays o k before e own
  | outside {own : List Step} (judged : Judges before e false own)
    (out : Change.ofEntry? o e k = none) : Relays o k before e own
  | added {own : List Step} {c : Change} (judged : Judges before e false own)
    (change : Change.ofEntry? o e k = some c) : Relays o k before e (own ++ [.added c])

/-- The answer that lets an expansion for a module go on. -/
def goesOn (o : SourceModule) : Step := .asked (.isDisposed o.project false)

/-- The answer that ends an expansion for a module. -/
def endsFor (o : SourceModule) : Step := .asked (.isDisposed o.project true)

/-- What lies ahead of an expansion is visited, and the files that are included are relayed, until
the project is disposed. -/
inductive Expands (i : Inclusion) (o : SourceModule) (k : ChangeKind) :
    List Step → List Visit → List Step → Prop
  | disposed {before : List Step} {ahead : List Visit} :
    Expands i o k before ahead [endsFor o]
  | finished {before : List Step} : Expands i o k before [] [goesOn o]
  | passed {before rest : List Step} {v : Visit} {ahead : List Visit}
    (left : v.included? i = none)
    (on : Expands i o k (before ++ [goesOn o, .visited v]) ahead rest) :
    Expands i o k before (v :: ahead) (goesOn o :: .visited v :: rest)
  | relayed {before own rest : List Step} {e : Entry} {ahead : List Visit}
    (included : i.includes e = true)
    (relays : Relays o k (before ++ [goesOn o, .visited (.entry e)]) e own)
    (on : Expands i o k (before ++ goesOn o :: .visited (.entry e) :: own) ahead rest) :
    Expands i o k before (.entry e :: ahead) (goesOn o :: .visited (.entry e) :: own ++ rest)

/-- What a mutation is about is judged, resolved and expanded for its owner. -/
inductive Adds (d : Disk) (x : Expander) (projects : List ProjectId) (k : ChangeKind)
    (before : List Step) (e : Entry) : List Step → Prop
  | metadata {own : List Step} (judged : Judges before e true own) :
    Adds d x projects k before e own
  | unowned {own asked : List Step} (judged : Judges before e false own)
    (resolved : Resolves e projects none asked) : Adds d x projects k before e (own ++ asked)
  | owned {own asked files : List Step} {o : SourceModule} (judged : Judges before e false own)
    (resolved : Resolves e projects (some o) asked)
    (expanded : Expands x.inclusion o k (before ++ own ++ asked ++ [.expanding o e]) (x.visits d e)
      files) :
    Adds d x projects k before e (own ++ asked ++ .expanding o e :: files)

/-- The mutations are taken one after the other, and to each that counts the same is done, by what
is known then and by the answers of the host. -/
inductive Passes (d : Disk) (x : Expander) (projects : List ProjectId) (classify : Classifier) :
    List Step → List Mutation → List Step → Prop
  | done {before : List Step} : Passes d x projects classify before [] []
  | failed {before : List Step} {m : Mutation} {ms : List Mutation}
    (verdict : classify m = .failed) : Passes d x projects classify before (m :: ms) [.took m]
  | ignored {before rest : List Step} {m : Mutation} {ms : List Mutation}
    (verdict : classify m = .ignored)
    (on : Passes d x projects classify (before ++ [.took m]) ms rest) :
    Passes d x projects classify before (m :: ms) (.took m :: rest)
  | counts {before own rest : List Step} {m : Mutation} {ms : List Mutation} {k : ChangeKind}
    (verdict : classify m = .counts k)
    (adds : Adds d x projects k (before ++ [.took m]) (m.primary k) own)
    (on : Passes d x projects classify (before ++ .took m :: own) ms rest) :
    Passes d x projects classify before (m :: ms) (.took m :: own ++ rest)

/-! ## The log goes by the rules -/

theorem bind_run {x : StateM σ α} {s t : σ} {a : α} (hx : x.run s = (a, t))
    (f : α → StateM σ β) : (x >>= f).run s = (f a).run t := by
  rw [run_bind, hx]

theorem ofLog_asked_isDisposed (log : List Step) (p : ProjectId) (answer : Bool) :
    ofLog (log ++ [.asked (.isDisposed p answer)]) = ofLog log := ofLog_append_eq rfl rfl

theorem Resolves.ofLog_eq {e : Entry} {ps : List ProjectId} {m? : Option SourceModule}
    {own : List Step} (h : Resolves e ps m? own) (log : List Step) : ofLog (log ++ own) = ofLog log := by
  have hown : own.filterMap Step.added? = [] ∧ own.filterMap Step.judged? = [] := by
    induction h with
    | nobody => exact ⟨rfl, rfl⟩
    | disposed _ ih => exact ih
    | claimed => exact ⟨rfl, rfl⟩
    | passed _ ih => exact ih
  exact ofLog_append_eq hown.1 hown.2

/-- A note of what brings no answer about metadata and adds nothing. -/
theorem note_run (step : Step) (hadded : step.added? = none) (hjudged : step.judged? = none)
    (s : σ × List Step) :
    ∃ t, (note step).run s = ((), t) ∧ t.2 = s.2 ++ [step] ∧ ofLog t.2 = ofLog s.2 := by
  refine ⟨(s.1, s.2 ++ [step]), rfl, rfl, ofLog_append_eq ?_ ?_⟩
  · rw [List.filterMap_cons_none hadded, List.filterMap_nil]
  · rw [List.filterMap_cons_none hjudged, List.filterMap_nil]

section

variable (h : Host σ)

theorem isMetadata_run (e : Entry) (s : σ × List Step) :
    ∃ answer t own, ((ofLog s.2).memo.isMetadata h.logged e).run s = ((answer, (ofLog t.2).memo), t) ∧
      t.2 = s.2 ++ own ∧ (ofLog t.2).batch = (ofLog s.2).batch ∧ Judges s.2 e answer own := by
  unfold Memo.isMetadata
  cases hget : (ofLog s.2).memo.get? e.path with
  | some answer => exact ⟨answer, s, [], rfl, (List.append_nil _).symm, rfl, .known hget⟩
  | none =>
    obtain ⟨answer, t, hasked, hlog⟩ : ∃ answer t, (h.logged.isMetadata e).run s = (answer, t) ∧
        t.2 = s.2 ++ [.asked (.isMetadata e answer)] := ⟨_, _, rfl, rfl⟩
    have hjudged := ofLog_judged s.2 e answer
    rw [← hlog] at hjudged
    dsimp only
    rw [bind_run hasked]
    -- the log now holds the first answer about this path, which is what the memo learns
    refine ⟨answer, t, _, ?_, hlog, ?_, .asked hget⟩
    · rw [hjudged]
      rfl
    · rw [hjudged]

theorem owner?_run (e : Entry) (ps : List ProjectId) (s : σ × List Step) :
    ∃ m? t own, (h.logged.owner? e ps).run s = (m?, t) ∧ t.2 = s.2 ++ own ∧
      Resolves e ps m? own := by
  induction ps generalizing s with
  | nil => exact ⟨none, s, [], rfl, (List.append_nil _).symm, .nobody⟩
  | cons p ps ih =>
    unfold Host.owner?
    obtain ⟨disposed, t, hasked, hlog⟩ : ∃ disposed t,
        (h.logged.isDisposed p).run s = (disposed, t) ∧
          t.2 = s.2 ++ [.asked (.isDisposed p disposed)] := ⟨_, _, rfl, rfl⟩
    rw [bind_run hasked]
    cases disposed with
    | true =>
      obtain ⟨m?, u, own, hrun, hu, hresolves⟩ := ih t
      refine ⟨m?, u, _, hrun, ?_, .disposed hresolves⟩
      rw [hu, hlog, List.append_assoc]
      rfl
    | false =>
      obtain ⟨found, u, hfound, hu⟩ : ∃ found u, (h.logged.findModule p e).run t = (found, u) ∧
          u.2 = t.2 ++ [.asked (.findModule p e found)] := ⟨_, _, rfl, rfl⟩
      rw [if_neg Bool.false_ne_true, bind_run hfound]
      cases found with
      | some m =>
        refine ⟨some m, u, _, rfl, ?_, .claimed⟩
        rw [hu, hlog, List.append_assoc]
        rfl
      | none =>
        obtain ⟨m?, w, own, hrun, hw, hresolves⟩ := ih u
        refine ⟨m?, w, _, hrun, ?_, .passed hresolves⟩
        rw [hw, hu, hlog, List.append_assoc, List.append_assoc]
        rfl

theorem addFile_relays (o : SourceModule) (k : ChangeKind) {e : Entry}
    (file : e.isDirectory = false) (s : σ × List Step) :
    ∃ t own, (addFile .scribe h.logged o k (ofLog s.2) e).run s = (ofLog t.2, t) ∧ t.2 = s.2 ++ own ∧
      Relays o k s.2 e own := by
  obtain ⟨answer, t, own, hrun, hlog, hbatch, hjudges⟩ := isMetadata_run h e s
  have hrelevant : ((ofLog s.2).memo.isRelevant h.logged e).run s =
      ((!answer, (ofLog t.2).memo), t) := by
    unfold Memo.isRelevant
    rw [file, if_neg Bool.false_ne_true, bind_run hrun]
    rfl
  unfold addFile
  rw [bind_run hrelevant, ← hbatch]
  cases answer with
  | true => exact ⟨t, own, rfl, hlog, .metadata hjudges⟩
  | false =>
    cases hchange : Change.ofEntry? o e k with
    | none => exact ⟨t, own, rfl, hlog, .outside hjudges hchange⟩
    | some c =>
      refine ⟨(t.1, t.2 ++ [.added c]), own ++ [.added c], ?_, ?_, .added hjudges hchange⟩
      · rw [ofLog_added, (Change.of_ofEntry? hchange).1]
        rfl
      · rw [← List.append_assoc, ← hlog]

theorem goOn_run (o : SourceModule) (s : σ × List Step) : ∃ disposed t,
    (do return !(← h.logged.isDisposed o.project) : StateM (σ × List Step) Bool).run s =
        (!disposed, t) ∧
      t.2 = s.2 ++ [.asked (.isDisposed o.project disposed)] ∧ ofLog t.2 = ofLog s.2 :=
  ⟨_, _, rfl, rfl, ofLog_asked_isDisposed _ _ _⟩

theorem foldAhead_expands (i : Inclusion) (o : SourceModule) (k : ChangeKind)
    (ahead : List Visit) (s : σ × List Step) :
    ∃ y t own, (Expansion.foldAhead i (do return !(← h.logged.isDisposed o.project)) Observer.scribe.visited
        (addFile .scribe h.logged o k) ahead (ofLog s.2)).run s = ((ofLog t.2, y), t) ∧ t.2 = s.2 ++ own ∧
      Expands i o k s.2 ahead own := by
  induction ahead generalizing s with
  | nil =>
    obtain ⟨disposed, t, hgo, hlog, hsame⟩ := goOn_run h o s
    unfold Expansion.foldAhead
    rw [bind_run hgo, ← hsame]
    cases disposed with
    | true => exact ⟨_, t, _, rfl, hlog, .disposed⟩
    | false => exact ⟨_, t, _, rfl, hlog, .finished⟩
  | cons v ahead ih =>
    obtain ⟨disposed, t, hgo, hlog, hsame⟩ := goOn_run h o s
    unfold Expansion.foldAhead
    rw [bind_run hgo, ← hsame]
    cases disposed with
    | true => exact ⟨_, t, _, rfl, hlog, .disposed⟩
    | false =>
      -- the search goes on, and the visit is written down before its file is looked at
      obtain ⟨u, hvisit, hu, hknown⟩ := note_run (.visited v) rfl rfl t
      have hu : u.2 = s.2 ++ [goesOn o, .visited v] := by
        rw [hu, hlog, List.append_assoc]
        rfl
      rw [Bool.not_false, if_pos rfl, Observer.scribe_visited, bind_run hvisit, ← hknown]
      cases hv : v.included? i with
      | none =>
        obtain ⟨y, w, own, hrun, hw, hexpands⟩ := ih u
        refine ⟨y, w, _, hrun, ?_, .passed hv (hu ▸ hexpands)⟩
        rw [hw, hu, List.append_assoc]
        rfl
      | some e =>
        obtain ⟨rfl, included⟩ := Visit.included?_eq_some_iff.1 hv
        obtain ⟨w, own, hfile, hw, hrelays⟩ :=
          addFile_relays h o k (Inclusion.isDirectory_of_includes included) u
        obtain ⟨y, z, rest, hrun, hz, hexpands⟩ := ih w
        have hw' : w.2 = s.2 ++ goesOn o :: .visited (.entry e) :: own := by
          rw [hw, hu, List.append_assoc]
          rfl
        refine ⟨y, z, _, ?_, ?_, .relayed included (hu ▸ hrelays) (hw' ▸ hexpands)⟩
        · dsimp only
          rw [bind_run hfile]
          exact hrun
        · rw [hz, hw', List.append_assoc]

variable (d : Disk) (x : Expander) (projects : List ProjectId) (classify : Classifier)

theorem addFiles_expands (o : SourceModule) (k : ChangeKind) (e : Entry) (s : σ × List Step) :
    ∃ t files, (addFiles .scribe h.logged d x o k (ofLog s.2) e).run s = (ofLog t.2, t) ∧
      t.2 = s.2 ++ .expanding o e :: files ∧
      Expands x.inclusion o k (s.2 ++ [.expanding o e]) (x.visits d e) files := by
  obtain ⟨t, hbegun, ht, hsame⟩ := note_run (.expanding o e) rfl rfl s
  obtain ⟨y, u, files, hrun, hu, hexpands⟩ := foldAhead_expands h x.inclusion o k (x.visits d e) t
  have hfiles : ((x.expand d e).foldObserved (do return !(← h.logged.isDisposed o.project))
      Observer.scribe.visited (addFile .scribe h.logged o k) (ofLog t.2)).run t = ((ofLog u.2, y), u) := hrun
  refine ⟨u, files, ?_, ?_, ht ▸ hexpands⟩
  · unfold addFiles
    rw [Observer.scribe_expanding, bind_run hbegun, ← hsame, bind_run hfiles]
    rfl
  · rw [hu, ht, List.append_assoc, List.singleton_append]

theorem addEntry_adds (k : ChangeKind) (e : Entry) (s : σ × List Step) :
    ∃ t own, (addEntry .scribe h.logged d x projects k (ofLog s.2) e).run s = (ofLog t.2, t) ∧
      t.2 = s.2 ++ own ∧ Adds d x projects k s.2 e own := by
  obtain ⟨answer, t, own, hjudged, ht, hbatch, hjudges⟩ := isMetadata_run h e s
  unfold addEntry
  rw [bind_run hjudged, ← hbatch]
  cases answer with
  | true => exact ⟨t, own, rfl, ht, .metadata hjudges⟩
  | false =>
    obtain ⟨m?, u, asked, howner, hu, hresolves⟩ := owner?_run h e projects t
    -- to look for the owner adds nothing to what is gathered and known
    have hknown : ofLog u.2 = ofLog t.2 := by rw [hu, hresolves.ofLog_eq]
    rw [← hknown]
    dsimp only
    rw [if_neg Bool.false_ne_true, bind_run howner]
    cases m? with
    | none =>
      refine ⟨u, _, rfl, ?_, .unowned hjudges hresolves⟩
      rw [hu, ht, List.append_assoc]
    | some o =>
      obtain ⟨w, files, hfiles, hw, hexpands⟩ := addFiles_expands h d x o k e u
      have hu' : u.2 = s.2 ++ own ++ asked := by rw [hu, ht]
      refine ⟨w, _, hfiles, ?_, .owned hjudges hresolves (hu' ▸ hexpands)⟩
      rw [hw, hu', List.append_assoc s.2, List.append_assoc]

/-- What is gathered and known can be read off the log, and the log goes by the rules. -/
theorem addObserved_passes (ms : List Mutation) (s : σ × List Step) :
    ∃ g? t own, (addObserved .scribe h.logged d x projects classify ms (ofLog s.2)).run s = (g?, t) ∧
      t.2 = s.2 ++ own ∧ (∀ g ∈ g?, g = ofLog t.2) ∧ Passes d x projects classify s.2 ms own := by
  induction ms generalizing s with
  | nil =>
    refine ⟨some (ofLog s.2), s, [], rfl, (List.append_nil _).symm, ?_, .done⟩
    intro g hg
    exact (Option.some.inj hg).symm
  | cons m ms ih =>
    unfold addObserved
    obtain ⟨t, htook, ht, hknown⟩ := note_run (.took m) rfl rfl s
    rw [Observer.scribe_took, bind_run htook, ← hknown]
    cases hverdict : classify m with
    | failed =>
      refine ⟨none, t, _, rfl, ht, ?_, .failed hverdict⟩
      intro g hg
      cases hg
    | ignored =>
      obtain ⟨g?, u, own, hrun, hu, hg, hpasses⟩ := ih t
      refine ⟨g?, u, _, hrun, ?_, hg, .ignored hverdict (ht ▸ hpasses)⟩
      rw [hu, ht, List.append_assoc]
      rfl
    | counts k =>
      obtain ⟨u, own, hentry, hu, hadds⟩ := addEntry_adds h d x projects k (m.primary k) t
      obtain ⟨g?, w, rest, hrun, hw, hg, hpasses⟩ := ih u
      have hu' : u.2 = s.2 ++ .took m :: own := by
        rw [hu, ht, List.append_assoc]
        rfl
      refine ⟨g?, w, _, ?_, ?_, hg, .counts hverdict (ht ▸ hadds) (hu' ▸ hpasses)⟩
      · dsimp only
        rw [bind_run hentry]
        exact hrun
      · rw [hw, hu', List.append_assoc]

end

/-! ## What is done in each part -/

section

variable {ps projects : List ProjectId} {o : SourceModule} {k : ChangeKind} {e : Entry} {st : Step}
  {before own : List Step} {answer : Bool} {m? : Option SourceModule}

theorem Judges.own_eq (h : Judges before e answer own) :
    own = [] ∨ own = [.asked (.isMetadata e answer)] := by
  cases h with
  | known => exact .inl rfl
  | asked => exact .inr rfl

theorem Judges.mem (h : Judges before e answer own) (hst : st ∈ own) :
    st = .asked (.isMetadata e answer) := by
  rcases h.own_eq with rfl | rfl
  · cases hst
  · exact List.mem_singleton.1 hst

theorem Resolves.mem (h : Resolves e ps m? own) (hst : st ∈ own) :
    ∃ reply, st = .asked reply := by
  induction h with
  | nobody => cases hst
  | disposed _ ih =>
    rcases List.mem_cons.1 hst with rfl | hst
    · exact ⟨_, rfl⟩
    · exact ih hst
  | claimed =>
    rcases List.mem_cons.1 hst with rfl | hst
    · exact ⟨_, rfl⟩
    · exact ⟨_, List.mem_singleton.1 hst⟩
  | passed _ ih =>
    rcases List.mem_cons.1 hst with rfl | hst
    · exact ⟨_, rfl⟩
    rcases List.mem_cons.1 hst with rfl | hst
    · exact ⟨_, rfl⟩
    · exact ih hst

theorem Relays.mem (h : Relays o k before e own) (hst : st ∈ own) :
    (∃ answer, st = .asked (.isMetadata e answer)) ∨ ∃ c, st = .added c := by
  cases h with
  | metadata judged => exact .inl ⟨_, judged.mem hst⟩
  | outside judged => exact .inl ⟨_, judged.mem hst⟩
  | added judged =>
    rcases List.mem_append.1 hst with hst | hst
    · exact .inl ⟨_, judged.mem hst⟩
    · exact .inr ⟨_, List.mem_singleton.1 hst⟩

end

end Gathering

open Gathering

/-- The log of gathering goes by its rules, and the batch is that of the changes on it. -/
theorem gatherLogged_passes (h : Host σ) (d : Disk) (x : Expander) (projects : List ProjectId)
    (classify : Classifier) (ms : List Mutation) (s : σ) :
    let r := (gatherLogged h d x projects classify ms).run (s, [])
    (∀ b ∈ r.1, b = .ofChanges (r.2.2.filterMap Step.added?)) ∧
      Passes d x projects classify [] ms r.2.2 := by
  obtain ⟨g?, t, own, hrun, hlog, hg, hpasses⟩ :=
    addObserved_passes h d x projects classify ms (s, [])
  have hgather : (gatherLogged h d x projects classify ms).run (s, []) =
      (g?.map (·.batch), t) := by
    unfold gatherLogged
    exact bind_run hrun _
  intro r
  have hr : r = (g?.map (·.batch), t) := hgather
  rw [List.nil_append] at hlog
  rw [hr]
  refine ⟨fun b hb => ?_, hlog ▸ hpasses⟩
  obtain ⟨g, hmem, rfl⟩ := Option.map_eq_some_iff.1 hb
  rw [hg g hmem]
  rfl

end ChangeRelay
