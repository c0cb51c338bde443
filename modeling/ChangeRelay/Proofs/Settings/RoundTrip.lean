/-
Nothing is lost by writing. The document of what is written for a value of the program is read as that
value again: settings with any texts in them, entries and modules whose paths are texts, and the names
of their parts. A file to which settings have been saved holds their text, is loaded as the same settings
and stays as it is when these are saved again; and settings that are built up have in each field what
the calls say about it (`writing_loses_nothing`).
-/
import ChangeRelay.Change.Kind
import ChangeRelay.Host.Module
import ChangeRelay.Proofs.Disk.Writing
import ChangeRelay.Proofs.Json.Documents
import ChangeRelay.Proofs.Settings.Building
import ChangeRelay.Proofs.Text.Utf8

namespace ChangeRelay

open Json (Document Answer Value)

/-! ## The parts -/

theorem ChangeKind.read_document (k : ChangeKind) : read k.toValue.document = .ok k := by
  cases k <;> rfl

theorem Phase.read_document (p : Phase) : read p.toValue.document = .ok p := by
  cases p <;> rfl

theorem Path.ofText_of_text? {p : Path} {t : String} (h : p.text? = some t) : Path.ofText t = p :=
  congrArg Path.mk (Utf8.decode?_eq_some_iff.1 h)

theorem Entry.read_document (e : Entry) (h : e.path.text?.isSome) :
    ∃ v, e.toValue? = some v ∧ read v.document = .ok e := by
  obtain ⟨t, ht⟩ := Option.isSome_iff_exists.1 h
  obtain ⟨p, isDirectory⟩ := e
  obtain rfl := Path.ofText_of_text? ht
  exact ⟨_, by rw [toValue?, Path.toValue?, ht]; rfl, rfl⟩

theorem SourceModule.read_document (m : SourceModule) (h : m.contentRoot.text?.isSome) :
    ∃ v, m.toValue? = some v ∧ read v.document = .ok m := by
  obtain ⟨t, ht⟩ := Option.isSome_iff_exists.1 h
  obtain ⟨id, project, root⟩ := m
  obtain rfl := Path.ofText_of_text? ht
  exact ⟨_, by rw [toValue?, Path.toValue?, ht]; rfl, rfl⟩

/-- A choice of files is read where three levels are left: it is an object with a list in it. -/
theorem Inclusion.read_document (levels : Nat) (h : 3 ≤ levels) (i : Inclusion) :
    read levels i.toValue.document = .ok i := by
  cases i with
  | all => rfl
  | text => rfl
  | extensions list =>
    have hkeep : Document.keepFlaw (levels - 1) (Value.list (list.map .text)).document = none := by
      rw [Value.document, Document.keepFlaw, if_neg (by omega), Json.keepItems_texts]
      rfl
    have hread := Json.readTexts_document list
    rw [toValue]
    simp only [Value.document, Value.fieldDocuments]
    rw [Value.document] at hkeep hread
    generalize Document.list (Value.itemDocuments (list.map .text)) .closed = d at hkeep hread
    show readFields (levels - 1) .closed (some .extensions) [] [(.ok "extensions", d)] = _
    simp [readFields, hkeep, ofFields, hread, bind, Except.bind, Document.readClosed,
      Document.required, Except.map]

/-! ## Settings -/

namespace Settings

variable {i : Inclusion} {patterns : List String} {links : Bool} {depth : Option UInt64}
  {millis : UInt64}

theorem readWord64_written (n : UInt64) : readWord64 (.number (.written n.toNat)) = .ok n := by
  have hn : n.toNat < Json.Numeral.wordLimit := n.toNat_lt
  rw [readWord64, Json.Numeral.written_eq hn, Document.readWord]
  exact congrArg Except.ok (UInt64.ofNat_toNat)

/-- Settings are read from an object with all their fields, if each field is read. -/
theorem read_object {di dp dl dd dm : Document} (hi : Inclusion.read (Json.maxLevels - 1) di = .ok i)
    (hp : dp.readTexts = .ok patterns) (hl : dl.readFlag = .ok links)
    (hd : Document.readOptional readWord64 dd = .ok depth) (hm : readWord64 dm = .ok millis) :
    read (.object [(.ok "inclusion", di), (.ok "metadata_patterns", dp), (.ok "follow_symlinks", dl),
      (.ok "max_depth", dd), (.ok "drain_timeout_ms", dm)] .closed) =
      .ok ⟨i, patterns, links, depth, millis⟩ := by
  simp [read, Document.readRecord, Document.readFields, fields, hi, hp, hl, hd, hm, bind, Except.bind,
    pure, Except.pure, Except.map, Given.nothing, Given.complete, Document.readClosed]

theorem read_document (s : Settings) : read s.toValue.document = .ok s := by
  obtain ⟨i, patterns, links, depth, millis⟩ := s
  have hi := Inclusion.read_document (Json.maxLevels - 1) (by decide) i
  have hp := Json.readTexts_document patterns
  have hm := readWord64_written millis
  cases depth with
  | none => exact read_object hi hp rfl rfl hm
  | some depth =>
    have hd : Document.readOptional readWord64 (.number (.written depth.toNat)) = .ok (some depth) := by
      rw [Document.readOptional, readWord64_written]
      · rfl
      · exact Document.noConfusion
    exact read_object hi hp rfl hd hm

/-- The text of settings is read as them. -/
theorem ofText_written (s : Settings) : ofText s.written = .ok s := by
  rw [ofText, written, Json.readWith_pretty, read_document]

/-- Settings are saved wherever a file can be written. The file holds their text then, is loaded as the
same settings and stays as it is when they are saved again. -/
theorem save_load (s : Settings) (d : Disk) (p : Path) :
    (∃ f, d.placeToWrite p = .error f ∧ s.save d p = .error (.io f)) ∨
    ∃ d', s.save d p = .ok d' ∧ d'.read p = .ok (Utf8.encode s.written) ∧ load d' p = .ok s ∧
      s.save d' p = .ok d' := by
  cases hplace : d.placeToWrite p with
  | error f => exact .inl ⟨f, rfl, by rw [save, Disk.write, hplace]; rfl⟩
  | ok l =>
    have hwrite : d.write p (Utf8.encode s.written) = .ok (d.set l (.file (Utf8.encode s.written))) :=
      Disk.write_eq_ok_iff.2 ⟨l, hplace, rfl⟩
    have hread := Disk.write_read hwrite
    refine .inr ⟨_, by rw [save, hwrite], hread, ?_, by rw [save, Disk.write_again hwrite]⟩
    simp [load, hread, ofText_written]

end Settings

/-- What is written is read as what it was. Settings are saved wherever a file can be written, whatever
texts and numbers are in them; the file is loaded as the same settings and stays as it is when these are
saved again. Entries and modules whose paths are texts have a written form, and it is read as them, as
are those of choices of files, names, kinds and phases. Nor is anything lost when settings are built up:
each field has what the calls say about it. -/
theorem writing_loses_nothing :
    (∀ (s : Settings) (d : Disk) (p : Path),
      (∃ f, d.placeToWrite p = .error f ∧ s.save d p = .error (.io f)) ∨
      ∃ d', s.save d p = .ok d' ∧ d'.read p = .ok (Utf8.encode s.written) ∧
        Settings.load d' p = .ok s ∧ s.save d' p = .ok d') ∧
    (∀ e : Entry, e.path.text?.isSome →
      ∃ v, e.toValue? = some v ∧ Json.readWith Entry.read v.compact = .ok e) ∧
    (∀ m : SourceModule, m.contentRoot.text?.isSome →
      ∃ v, m.toValue? = some v ∧ Json.readWith SourceModule.read v.compact = .ok m) ∧
    (∀ i : Inclusion, Json.readWith (Inclusion.read Json.maxLevels) i.toValue.compact = .ok i) ∧
    (∀ i : ProjectId, Json.readWith ProjectId.read i.toValue.compact = .ok i) ∧
    (∀ i : ModuleId, Json.readWith ModuleId.read i.toValue.compact = .ok i) ∧
    (∀ k : ChangeKind, Json.readWith ChangeKind.read k.toValue.compact = .ok k) ∧
    (∀ p : Phase, Json.readWith Phase.read p.toValue.compact = .ok p) ∧
    ∀ calls : List Settings.Call,
      Settings.BuiltBy (calls.foldl Settings.Call.apply Settings.standard) calls := by
  refine ⟨Settings.save_load, fun e he => ?_, fun m hm => ?_, fun i => ?_, fun i => ?_, fun i => ?_,
    fun k => ?_, fun p => ?_, Settings.BuiltBy.ofCalls⟩
  · obtain ⟨v, hv, hread⟩ := e.read_document he
    exact ⟨v, hv, (Json.readWith_compact v).trans hread⟩
  · obtain ⟨v, hv, hread⟩ := m.read_document hm
    exact ⟨v, hv, (Json.readWith_compact v).trans hread⟩
  · exact (Json.readWith_compact _).trans (Inclusion.read_document _ (by decide) i)
  · exact Json.readWith_compact _
  · exact Json.readWith_compact _
  · exact (Json.readWith_compact _).trans k.read_document
  · exact (Json.readWith_compact _).trans p.read_document

/-- Settings with a quote, a backslash, controls and letters beyond ASCII in their texts and the largest
numbers are saved to a new file and loaded from it. -/
theorem writing_loses_nothing_sample :
    ∃ d', Settings.save ⟨.extensions ["\"\\\n\x01", "é"], ["\x7b\t\x7d", ""], true, some (-1), -1⟩
        (.empty []) ⟨[47, 115]⟩ = .ok d' ∧
      Settings.load d' ⟨[47, 115]⟩ =
        .ok ⟨.extensions ["\"\\\n\x01", "é"], ["\x7b\t\x7d", ""], true, some (-1), -1⟩ := by
  have hplace : Disk.placeToWrite (.empty []) ⟨[47, 115]⟩ = .ok [[115]] := by rfl
  rcases writing_loses_nothing.1 ⟨.extensions ["\"\\\n\x01", "é"], ["\x7b\t\x7d", ""], true, some (-1), -1⟩
    (.empty []) ⟨[47, 115]⟩ with ⟨f, hf, -⟩ | ⟨d', hsave, -, hload, -⟩
  · rw [hplace] at hf
    cases hf
  · exact ⟨d', hsave, hload⟩

end ChangeRelay
