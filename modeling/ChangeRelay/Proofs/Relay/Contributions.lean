/-
What is gathered where answers do not change. The changes that mutations come to can then be read off
the answers (`Answers.changes`): one after the other, the mutations that count, are no metadata and
have an owner come to one change for each file found that is no directory, no metadata and within
the module. About metadata it is the first answer for a path that counts, so `asked` goes along,
the entries about which something has been asked so far.

The memo knows the answers about these entries and nothing else (`Memo.Knows`), and the batch is that
of the changes so far; every step of gathering keeps both (`Gathering.Holds`).
-/
import ChangeRelay.Proofs.Host.Record
import ChangeRelay.Proofs.Relay.Grouping
import ChangeRelay.Proofs.Walk.Files

namespace ChangeRelay

/-- A change to an entry is to the module, of the kind and at the path that it is made for. -/
theorem Change.of_ofEntry? {m : SourceModule} {e : Entry} {k : ChangeKind} {c : Change}
    (h : Change.ofEntry? m e k = some c) : c.module = m ∧ c.kind = k ∧ c.path = e.path := by
  obtain ⟨r, -, rfl⟩ := Option.map_eq_some_iff.1 h
  exact ⟨rfl, rfl, rfl⟩

/-- The entry whose answer counts for an entry: of those asked about, the first with the same path;
the entry itself if there is none. -/
def firstAsked (asked : List Entry) (e : Entry) : Entry :=
  (asked.find? fun f => decide (f.path.Same e.path)).getD e

/-- The entry whose answer counts has the same path; it has been asked about, or is the entry itself. -/
theorem firstAsked_same (asked : List Entry) (e : Entry) :
    (firstAsked asked e = e ∨ firstAsked asked e ∈ asked) ∧ (firstAsked asked e).path.Same e.path := by
  unfold firstAsked
  cases hf : asked.find? fun f => decide (f.path.Same e.path) with
  | none => exact ⟨.inl rfl, .refl _⟩
  | some f => exact ⟨.inr (List.mem_of_find?_eq_some hf), by simpa using List.find?_some hf⟩

/-- What is asked about after an entry does not count for it. -/
theorem firstAsked_append (asked later : List Entry) (e : Entry) :
    firstAsked (asked ++ e :: later) e = firstAsked asked e := by
  unfold firstAsked
  rw [List.find?_append, List.find?_cons_of_pos (by simpa using Path.Same.refl e.path)]
  cases asked.find? fun f => decide (f.path.Same e.path) <;> rfl

namespace Answers

variable (a : Answers) (d : Disk) (x : Expander) (projects : List ProjectId) (classify : Classifier)

/-- Whether an entry counts as metadata when others have been asked about before. -/
def countsAsMetadata (asked : List Entry) (e : Entry) : Bool := a.isMetadata (firstAsked asked e)

/-- The module to which an entry is attributed, if it is relayed at all. -/
def target? (asked : List Entry) (e : Entry) : Option SourceModule :=
  if a.countsAsMetadata asked e then none else a.owner? e projects

/-- The files that are found for an entry of a module. -/
def found (m : SourceModule) (e : Entry) : List Entry :=
  if a.isDisposed m.project then [] else x.files d e

/-- The change of a kind to a file of a module, if it is relayed. -/
def change? (asked : List Entry) (m : SourceModule) (k : ChangeKind) (f : Entry) : Option Change :=
  if f.isDirectory || a.countsAsMetadata asked f then none else Change.ofEntry? m f k

/-- What is asked about for an entry that changed, and the changes that it comes to. -/
def ofEntry (asked : List Entry) (k : ChangeKind) (e : Entry) : List Entry × List Change :=
  match a.target? projects asked e with
  | none => ([e], [])
  | some m =>
    let files := a.found d x m e
    let now := e :: files.filter fun f => !f.isDirectory
    (now, files.filterMap (a.change? (asked ++ now) m k))

/-- The changes that mutations come to, in their order. -/
def changes : (asked : List Entry) → List Mutation → List Change
  | _, [] => []
  | asked, m :: ms =>
    match classify m with
    | .counts k =>
      let r := a.ofEntry d x projects asked k (m.primary k)
      r.2 ++ changes (asked ++ r.1) ms
    | _ => changes asked ms

/-- The entries about which something has been asked after mutations. -/
def askedAfter : (asked : List Entry) → List Mutation → List Entry
  | asked, [] => asked
  | asked, m :: ms =>
    match classify m with
    | .counts k => askedAfter (asked ++ (a.ofEntry d x projects asked k (m.primary k)).1) ms
    | _ => askedAfter asked ms

variable {a d x projects classify} {asked : List Entry} {m : Mutation} {ms ns : List Mutation}
  {k : ChangeKind}

theorem changes_of_counts (hm : classify m = .counts k) :
    a.changes d x projects classify asked (m :: ms) =
      (a.ofEntry d x projects asked k (m.primary k)).2 ++
        a.changes d x projects classify (asked ++ (a.ofEntry d x projects asked k (m.primary k)).1) ms := by
  rw [changes, hm]

theorem changes_of_not_counts (hm : ∀ k, classify m ≠ .counts k) :
    a.changes d x projects classify asked (m :: ms) = a.changes d x projects classify asked ms := by
  rw [changes]
  split
  · rename_i k hk
    exact absurd hk (hm k)
  · rfl

theorem askedAfter_of_counts (hm : classify m = .counts k) :
    a.askedAfter d x projects classify asked (m :: ms) =
      a.askedAfter d x projects classify (asked ++ (a.ofEntry d x projects asked k (m.primary k)).1) ms := by
  rw [askedAfter, hm]

theorem askedAfter_of_not_counts (hm : ∀ k, classify m ≠ .counts k) :
    a.askedAfter d x projects classify asked (m :: ms) = a.askedAfter d x projects classify asked ms := by
  rw [askedAfter]
  split
  · rename_i k hk
    exact absurd hk (hm k)
  · rfl

theorem askedAfter_append : a.askedAfter d x projects classify asked (ms ++ ns) =
    a.askedAfter d x projects classify (a.askedAfter d x projects classify asked ms) ns := by
  induction ms generalizing asked with
  | nil => rfl
  | cons m ms ih =>
    by_cases hm : ∃ k, classify m = .counts k
    · obtain ⟨k, hm⟩ := hm
      rw [List.cons_append, askedAfter_of_counts hm, askedAfter_of_counts hm, ih]
    · have hm : ∀ k, classify m ≠ .counts k := fun k hk => hm ⟨k, hk⟩
      rw [List.cons_append, askedAfter_of_not_counts hm, askedAfter_of_not_counts hm, ih]

/-- The changes that mutations come to are followed by those of later mutations. -/
theorem changes_append : a.changes d x projects classify asked (ms ++ ns) =
    a.changes d x projects classify asked ms ++
      a.changes d x projects classify (a.askedAfter d x projects classify asked ms) ns := by
  induction ms generalizing asked with
  | nil => rfl
  | cons m ms ih =>
    by_cases hm : ∃ k, classify m = .counts k
    · obtain ⟨k, hm⟩ := hm
      rw [List.cons_append, changes_of_counts hm, changes_of_counts hm, askedAfter_of_counts hm, ih,
        List.append_assoc]
    · have hm : ∀ k, classify m ≠ .counts k := fun k hk => hm ⟨k, hk⟩
      rw [List.cons_append, changes_of_not_counts hm, changes_of_not_counts hm,
        askedAfter_of_not_counts hm, ih]

/-- What has been asked about stays so. -/
theorem prefix_askedAfter : asked <+: a.askedAfter d x projects classify asked ms := by
  induction ms generalizing asked with
  | nil => exact List.prefix_rfl
  | cons m ms ih =>
    by_cases hm : ∃ k, classify m = .counts k
    · obtain ⟨k, hm⟩ := hm
      rw [askedAfter_of_counts hm]
      exact (List.prefix_append _ _).trans ih
    · rw [askedAfter_of_not_counts fun k hk => hm ⟨k, hk⟩]
      exact ih

variable (a d x projects) in
/-- What mutations come to, of which one counts: first what those before it do, then what it does, and
then more. -/
theorem exists_split (counts : classify m = .counts k) (before after : List Mutation) :
    let asked := a.askedAfter d x projects classify [] before
    let now := a.ofEntry d x projects asked k (m.primary k)
    ∃ later back,
      a.changes d x projects classify [] (before ++ [m]) =
        a.changes d x projects classify [] before ++ now.2 ∧
      a.changes d x projects classify [] (before ++ m :: after) =
        a.changes d x projects classify [] before ++ now.2 ++ back ∧
      a.askedAfter d x projects classify [] (before ++ m :: after) = asked ++ now.1 ++ later := by
  intro asked now
  have hchanges : a.changes d x projects classify [] (before ++ [m]) =
      a.changes d x projects classify [] before ++ now.2 := by
    rw [changes_append, changes_of_counts counts, changes, List.append_nil]
  have hasked : a.askedAfter d x projects classify [] (before ++ [m]) = asked ++ now.1 := by
    rw [askedAfter_append, askedAfter_of_counts counts, askedAfter]
  obtain ⟨later, hlater⟩ : asked ++ now.1 <+: a.askedAfter d x projects classify [] (before ++ m :: after) := by
    rw [List.append_cons, askedAfter_append, hasked]
    exact prefix_askedAfter
  refine ⟨later, a.changes d x projects classify (asked ++ now.1) after, hchanges, ?_, hlater.symm⟩
  rw [List.append_cons, changes_append, hchanges, hasked]

theorem found_subset (o : SourceModule) (e : Entry) : a.found d x o e ⊆ x.files d e := by
  unfold found
  split
  · exact List.nil_subset _
  · exact List.Subset.refl _

/-- A file with a change is no directory, and it does not count as metadata. -/
theorem of_change? {o : SourceModule} {f : Entry} {c : Change} (h : a.change? asked o k f = some c) :
    f.isDirectory = false ∧ a.countsAsMetadata asked f = false ∧ Change.ofEntry? o f k = some c := by
  unfold change? at h
  split at h
  · cases h
  · rename_i hf
    simp only [Bool.or_eq_true, not_or, Bool.not_eq_true] at hf
    exact ⟨hf.1, hf.2, h⟩

theorem module_of_mem_filterMap {o : SourceModule} {fs : List Entry} :
    ∀ c ∈ fs.filterMap (a.change? asked o k), c.module = o := by
  intro c hc
  obtain ⟨f, -, hfc⟩ := List.mem_filterMap.1 hc
  exact (Change.of_ofEntry? (of_change? hfc).2.2).1

/-- Something is asked only about the entry itself and about files that it stands for. -/
theorem mem_ofEntry_fst {e f : Entry} (hf : f ∈ (a.ofEntry d x projects asked k e).1) :
    f = e ∨ f ∈ x.files d e := by
  unfold ofEntry at hf
  split at hf
  · exact .inl (List.mem_singleton.1 hf)
  · rcases List.mem_cons.1 hf with rfl | hf
    · exact .inl rfl
    · exact .inr (found_subset _ _ (List.mem_filter.1 hf).1)

/-- Something is always asked about the entry itself, and first. -/
theorem ofEntry_fst_cons (e : Entry) : ∃ rest, (a.ofEntry d x projects asked k e).1 = e :: rest := by
  unfold ofEntry
  split
  · exact ⟨[], rfl⟩
  · exact ⟨_, rfl⟩

/-- The changes that an entry comes to are to files that it stands for. -/
theorem mem_ofEntry_snd {e : Entry} {c : Change} (hc : c ∈ (a.ofEntry d x projects asked k e).2) :
    ∃ f ∈ x.files d e,
      a.change? (asked ++ (a.ofEntry d x projects asked k e).1) c.module k f = some c := by
  unfold ofEntry at hc ⊢
  split at hc
  · cases hc
  · rename_i o ho
    obtain ⟨f, hf, hfc⟩ := List.mem_filterMap.1 hc
    have hm : c.module = o := (Change.of_ofEntry? (of_change? hfc).2.2).1
    exact ⟨f, found_subset _ _ hf, by rw [hm]; exact hfc⟩

/-- The entries that are looked at for a list of mutations: those that the ones that count are about,
and the files that these stand for. -/
def Concerned (d : Disk) (x : Expander) (classify : Classifier) (ms : List Mutation) (e : Entry) :
    Prop :=
  ∃ m ∈ ms, ∃ k, classify m = .counts k ∧ (e = m.primary k ∨ e ∈ x.files d (m.primary k))

theorem Concerned.cons {e : Entry} (h : Concerned d x classify ms e) :
    Concerned d x classify (m :: ms) e := by
  obtain ⟨m', hm', h⟩ := h
  exact ⟨m', List.mem_cons_of_mem _ hm', h⟩

/-- Every change that is read off is one to a file that a mutation of its kind stands for, and it is
not metadata by what has been asked about entries that the mutations concern. -/
theorem mem_changes {c : Change} : ∀ {ms : List Mutation} {asked : List Entry},
    c ∈ a.changes d x projects classify asked ms →
    ∃ m ∈ ms, classify m = .counts c.kind ∧ ∃ f ∈ x.files d (m.primary c.kind),
      ∃ asked', (∀ e ∈ asked', e ∈ asked ∨ Concerned d x classify ms e) ∧
        a.change? asked' c.module c.kind f = some c
  | m :: ms, asked, hc => by
    by_cases hm : ∃ k, classify m = .counts k
    · obtain ⟨k, hm⟩ := hm
      have now {e : Entry} (he : e ∈ (a.ofEntry d x projects asked k (m.primary k)).1) :
          Concerned d x classify (m :: ms) e := ⟨m, List.mem_cons_self, k, hm, mem_ofEntry_fst he⟩
      rw [changes_of_counts hm] at hc
      rcases List.mem_append.1 hc with hc | hc
      · obtain ⟨f, hf, hfc⟩ := mem_ofEntry_snd hc
        obtain rfl : c.kind = k := (Change.of_ofEntry? (of_change? hfc).2.2).2.1
        exact ⟨m, List.mem_cons_self, hm, f, hf, _, fun e he => (List.mem_append.1 he).imp_right now, hfc⟩
      · obtain ⟨m', hm', hk, f, hf, asked', hasked, hfc⟩ := mem_changes hc
        refine ⟨m', List.mem_cons_of_mem _ hm', hk, f, hf, asked', fun e he => ?_, hfc⟩
        rcases hasked e he with he | he
        · exact (List.mem_append.1 he).imp_right now
        · exact .inr he.cons
    · rw [changes_of_not_counts fun k hk => hm ⟨k, hk⟩] at hc
      obtain ⟨m', hm', hk, f, hf, asked', hasked, hfc⟩ := mem_changes hc
      exact ⟨m', List.mem_cons_of_mem _ hm', hk, f, hf, asked', fun e he => (hasked e he).imp_right .cons, hfc⟩

end Answers

/-! ## The memo -/

namespace Memo

/-- A memo knows the answers about the entries that have been asked about, and no others. -/
def Knows (a : Answers) (asked : List Entry) (m : Memo) : Prop :=
  ∀ p, m.get? p = (asked.find? fun f => decide (f.path.Same p)).map a.isMetadata

theorem empty_knows (a : Answers) : Memo.empty.Knows a [] := fun _ => rfl

theorem get?_insert (m : Memo) (p q : Path) (answer : Bool) :
    (m.insert p answer).get? q = (m.get? q).or (if p.Same q then some answer else none) := by
  unfold get? insert
  rw [List.find?_append, Option.map_or]
  by_cases h : p.Same q <;> simp [h]

variable {a : Answers} {asked : List Entry} {m : Memo}

/-- Of an entry that has been asked about, the memo knows the answer that counts, and what is asked about
later does not change it. -/
theorem Knows.get?_of_mem {later : List Entry} (h : m.Knows a (asked ++ later)) {e : Entry}
    (he : e ∈ asked) : m.get? e.path = some (a.countsAsMetadata asked e) := by
  have hfind : (asked.find? fun f => decide (f.path.Same e.path)).isSome :=
    List.find?_isSome.2 ⟨e, he, decide_eq_true (.refl _)⟩
  obtain ⟨f, hf⟩ := Option.isSome_iff_exists.1 hfind
  rw [h e.path, List.find?_append, Answers.countsAsMetadata, firstAsked, hf]
  rfl

/-- Asking a memo gives the answer that counts, and adds the entry to those asked about. -/
theorem Knows.isMetadata (h : m.Knows a asked) (e : Entry) :
    ∃ m', m.isMetadata a.host e = pure (a.countsAsMetadata asked e, m') ∧ m'.Knows a (asked ++ [e]) := by
  have he := h e.path
  unfold Memo.isMetadata Answers.countsAsMetadata firstAsked
  cases hf : asked.find? fun f => decide (f.path.Same e.path) with
  | some f =>
    rw [hf, Option.map_some] at he
    rw [he]
    refine ⟨m, rfl, fun p => ?_⟩
    rw [h p, List.find?_append]
    cases hp : asked.find? fun f => decide (f.path.Same p) with
    | some g => rfl
    | none =>
      -- `e` would be the first with the path `p`, but `f` has the path of `e`
      have hfp : ¬ f.path.Same p := by
        simpa using List.find?_eq_none.1 hp f (List.mem_of_find?_eq_some hf)
      have hfe : f.path.Same e.path := by simpa using List.find?_some hf
      have hep : ¬ e.path.Same p := fun hep => hfp (hfe.trans hep)
      simp [hep]
  | none =>
    rw [hf, Option.map_none] at he
    rw [he]
    refine ⟨m.insert e.path (a.isMetadata e), rfl, fun p => ?_⟩
    rw [get?_insert, h p, List.find?_append, Option.map_or]
    by_cases hep : e.path.Same p <;> simp [hep]

theorem Knows.isRelevant (h : m.Knows a asked) (e : Entry) :
    ∃ m', m.isRelevant a.host e = pure (!(e.isDirectory || a.countsAsMetadata asked e), m') ∧
      m'.Knows a (asked ++ [e].filter fun f => !f.isDirectory) := by
  unfold Memo.isRelevant
  cases he : e.isDirectory with
  | true => exact ⟨m, rfl, by simpa [he] using h⟩
  | false =>
    obtain ⟨m', hm, hk⟩ := h.isMetadata e
    rw [if_neg Bool.false_ne_true, hm]
    exact ⟨m', rfl, by simpa [he] using hk⟩

end Memo

/-! ## Gathering -/

namespace Gathering

variable {a : Answers} {asked : List Entry} {cs : List Change} {g : Gathering}

/-- What has been gathered when entries have been asked about and changes have been found. -/
structure Holds (a : Answers) (asked : List Entry) (cs : List Change) (g : Gathering) : Prop where
  memo : g.memo.Knows a asked
  batch : g.batch = .ofChanges cs

theorem empty_holds (a : Answers) : Gathering.empty.Holds a [] [] := ⟨Memo.empty_knows a, rfl⟩

theorem addFile_holds (h : g.Holds a asked cs) (m : SourceModule) (k : ChangeKind) (f : Entry) :
    ∃ g', addFile .silent a.host m k g f = pure g' ∧
      g'.Holds a (asked ++ [f].filter fun f => !f.isDirectory) (cs ++ (a.change? asked m k f).toList) := by
  obtain ⟨memo, hm, hk⟩ := h.memo.isRelevant f
  unfold addFile Answers.change?
  rw [hm, pure_bind]
  cases f.isDirectory || a.countsAsMetadata asked f with
  | true => exact ⟨_, rfl, hk, by simpa using h.batch⟩
  | false =>
    cases hc : Change.ofEntry? m f k with
    | none => exact ⟨_, rfl, hk, by simpa using h.batch⟩
    | some c =>
      refine ⟨_, rfl, hk, ?_⟩
      show g.batch.add m c = .ofChanges (cs ++ [c])
      rw [h.batch, ← (Change.of_ofEntry? hc).1, Batch.add_ofChanges]

theorem filterMap_cons_toList {α β : Type} (f : α → Option β) (x : α) (xs : List α) :
    (x :: xs).filterMap f = (f x).toList ++ xs.filterMap f := by
  rw [List.filterMap_cons]; cases f x <;> rfl

/-- The files of an entry, one after the other. What is asked about them counts for later ones, but
not for earlier ones, so that all changes can be read off with all that is asked about. -/
theorem foldlM_addFile_holds (m : SourceModule) (k : ChangeKind) : ∀ (fs : List Entry) {asked : List Entry}
    {cs : List Change} {g : Gathering}, g.Holds a asked cs →
    ∃ g', fs.foldlM (addFile .silent a.host m k) g = pure g' ∧
      g'.Holds a (asked ++ fs.filter fun f => !f.isDirectory)
        (cs ++ fs.filterMap (a.change? (asked ++ fs.filter fun f => !f.isDirectory) m k))
  | [], _, _, g, h => ⟨g, rfl, by simpa using h⟩
  | f :: fs, asked, cs, g, h => by
    obtain ⟨g₁, h₁, hold⟩ := addFile_holds h m k f
    obtain ⟨g₂, h₂, hold⟩ := foldlM_addFile_holds m k fs hold
    refine ⟨g₂, by rw [List.foldlM_cons, h₁, pure_bind, h₂], ?_⟩
    have hask : asked ++ ([f].filter fun f => !f.isDirectory) ++ (fs.filter fun f => !f.isDirectory) =
        asked ++ (f :: fs).filter fun f => !f.isDirectory := by
      rw [List.append_assoc, ← List.filter_append, List.singleton_append]
    have hc : a.change? asked m k f =
        a.change? (asked ++ (f :: fs).filter fun f => !f.isDirectory) m k f := by
      unfold Answers.change?
      cases hf : f.isDirectory with
      | true => rfl
      | false =>
        rw [List.filter_cons_of_pos (by simp [hf])]
        unfold Answers.countsAsMetadata
        rw [firstAsked_append]
    rw [hask, List.append_assoc, hc, ← filterMap_cons_toList] at hold
    exact hold

theorem addFiles_holds (d : Disk) (x : Expander) (h : g.Holds a asked cs) (m : SourceModule)
    (k : ChangeKind) (e : Entry) :
    ∃ g', addFiles .silent a.host d x m k g e = pure g' ∧
      g'.Holds a (asked ++ (a.found d x m e).filter fun f => !f.isDirectory)
        (cs ++ (a.found d x m e).filterMap
          (a.change? (asked ++ (a.found d x m e).filter fun f => !f.isDirectory) m k)) := by
  rw [addFiles_silent, Answers.host_isDisposed, pure_bind]
  unfold Answers.found
  cases a.isDisposed m.project with
  | true =>
    obtain ⟨y, hy⟩ := Expansion.foldl_stop x d e (addFile .silent a.host m k) g
    exact ⟨g, by rw [Bool.not_true, hy]; rfl, by simpa using h⟩
  | false =>
    obtain ⟨g', hg, hold⟩ := foldlM_addFile_holds m k (x.files d e) h
    exact ⟨g', by rw [Bool.not_false, Expansion.foldl_goOn, hg]; rfl, hold⟩

variable (d : Disk) (x : Expander) (projects : List ProjectId) (classify : Classifier)

theorem addEntry_holds (h : g.Holds a asked cs) (k : ChangeKind) (e : Entry) :
    ∃ g', g.addEntry .silent a.host d x projects k e = pure g' ∧
      g'.Holds a (asked ++ (a.ofEntry d x projects asked k e).1)
        (cs ++ (a.ofEntry d x projects asked k e).2) := by
  obtain ⟨memo, hm, hk⟩ := h.memo.isMetadata e
  have hold : ({ g with memo := memo } : Gathering).Holds a (asked ++ [e]) cs := ⟨hk, h.batch⟩
  unfold addEntry Answers.ofEntry Answers.target?
  rw [hm, pure_bind, Answers.owner?_host]
  cases a.countsAsMetadata asked e with
  | true => exact ⟨_, rfl, by simpa using hold⟩
  | false =>
    simp only [Bool.false_eq_true, if_false, pure_bind]
    cases a.owner? e projects with
    | none => exact ⟨_, rfl, by simpa using hold⟩
    | some m =>
      obtain ⟨g', hg, hold⟩ := addFiles_holds d x hold m k e
      exact ⟨g', hg, by simpa using hold⟩

theorem addMutations_holds : ∀ (ms : List Mutation) {asked : List Entry} {cs : List Change}
    {g : Gathering}, g.Holds a asked cs → (∀ m ∈ ms, classify m ≠ .failed) →
    ∃ g', addMutations a.host d x projects classify ms g = pure (some g') ∧
      g'.Holds a (a.askedAfter d x projects classify asked ms)
        (cs ++ a.changes d x projects classify asked ms)
  | [], asked, cs, g, h, _ => ⟨g, rfl, by simpa [Answers.changes, Answers.askedAfter] using h⟩
  | m :: ms, asked, cs, g, h, hc => by
    have hms : ∀ m ∈ ms, classify m ≠ .failed := fun m hm => hc m (List.mem_cons_of_mem _ hm)
    rw [addMutations_cons]
    cases hm : classify m with
    | failed => exact absurd hm (hc m List.mem_cons_self)
    | ignored =>
      have hm : ∀ k, classify m ≠ .counts k := by simp [hm]
      rw [Answers.changes_of_not_counts hm, Answers.askedAfter_of_not_counts hm]
      exact addMutations_holds ms h hms
    | counts k =>
      obtain ⟨g₁, h₁, hold⟩ := addEntry_holds d x projects h k (m.primary k)
      obtain ⟨g₂, h₂, hold⟩ := addMutations_holds ms hold hms
      rw [Answers.changes_of_counts hm, Answers.askedAfter_of_counts hm, ← List.append_assoc]
      exact ⟨g₂, by dsimp only; rw [h₁, pure_bind, h₂], hold⟩

/-- What is gathered from a registry, which stays as it is. -/
theorem addMutations_registry (r : Registry) (ms : List Mutation) (hc : ∀ m ∈ ms, classify m ≠ .failed) :
    ∃ g, (addMutations Registry.host d x projects classify ms .empty).run r = (some g, r) ∧
      g.Holds r.answers (r.answers.askedAfter d x projects classify [] ms)
        (r.answers.changes d x projects classify [] ms) := by
  obtain ⟨g, hg, hold⟩ := addMutations_holds d x projects classify ms (empty_holds r.answers) hc
  have hstep := addObserved_inStep (registry_inStep r) silent_inStep d x projects classify ms .empty
  refine ⟨g, Prod.ext ?_ (hstep.related (t := ()) rfl), hold⟩
  exact (hstep.value_eq (t := ()) rfl).trans (congrArg (fun y => (y.run ()).1) hg)

end Gathering

/-- What is gathered where answers do not change: the batch of the changes that are read off. -/
theorem gather_answers (a : Answers) (d : Disk) (x : Expander) (projects : List ProjectId)
    (classify : Classifier) (ms : List Mutation) (hc : ∀ m ∈ ms, classify m ≠ .failed) :
    gather a.host d x projects classify ms =
      pure (some (.ofChanges (a.changes d x projects classify [] ms))) := by
  obtain ⟨g, hg, hold⟩ :=
    Gathering.addMutations_holds d x projects classify ms (Gathering.empty_holds a) hc
  rw [gather_eq, hg, pure_bind, Option.map_some, hold.batch, List.nil_append]

theorem gather_registry (r : Registry) (d : Disk) (x : Expander) (projects : List ProjectId)
    (classify : Classifier) (ms : List Mutation) (hc : ∀ m ∈ ms, classify m ≠ .failed) :
    (gather Registry.host d x projects classify ms).run r =
      (some (.ofChanges (r.answers.changes d x projects classify [] ms)), r) := by
  obtain ⟨g, hg, hold⟩ := Gathering.addMutations_registry d x projects classify r ms hc
  rw [gather_eq, StateT.run_bind, hg, ← hold.batch]
  rfl

end ChangeRelay
