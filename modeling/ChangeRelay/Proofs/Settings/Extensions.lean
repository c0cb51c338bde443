/-
Lists of extensions and the case of letters. An extension is lowered over all of Unicode and then compared with those
that are listed but for the letters A to Z. What is included by a list has an extension that is the same in lower case
as one that is listed. The converse holds for all that is listed in lower case, and so for every list that is built of
extensions (`ignoresCase_listed`); but a list that is read from a text is kept as it is written there, and then one of
its members must stand for the lower case of each (`ignoresCase_iff`).
-/
import ChangeRelay.Proofs.Path.Names
import ChangeRelay.Proofs.Text.Lowercase
import ChangeRelay.Settings.Inclusion

namespace ChangeRelay.Inclusion

open Text (lowercase lowerAscii)

variable {list : List String} {e : Entry} {x : String}

/-- The files that are included by a list are those whose extension is, in lower case, the same as that of one that is
listed. -/
def IgnoresCase (list : List String) : Prop :=
  ∀ (e : Entry) (x : String), e.isDirectory = false → e.path.extensionText? = some x →
    ((extensions list).includes e = true ↔ ∃ l ∈ list, lowercase l = lowercase x)

/-- What is listed that becomes the lower case of an extension when the letters A to Z are lowered. -/
def StandsFor (list : List String) (x : String) : Prop :=
  ∃ l ∈ list, l.toList.map lowerAscii = (lowercase x).toList

instance (list : List String) (x : String) : Decidable (StandsFor list x) :=
  inferInstanceAs (Decidable (∃ l ∈ list, l.toList.map lowerAscii = (lowercase x).toList))

theorem includes_extensions_iff (file : e.isDirectory = false) (hx : e.path.extensionText? = some x) :
    (extensions list).includes e = true ↔ StandsFor list x := by
  have hext : e.extension? = some (lowercase x) := by
    rw [Entry.extension?, Path.extension?_eq, hx, Option.map_some]
  rw [includes, if_neg (by simp [file])]
  simp only [hext, List.any_eq_true, Text.sameButAsciiCase_lowercase_iff]
  exact Iff.rfl

theorem StandsFor.exists_lowercase (h : StandsFor list x) : ∃ l ∈ list, lowercase l = lowercase x := by
  obtain ⟨l, hl, hsame⟩ := h
  exact ⟨l, hl, Text.lowercase_eq_of_map_lowerAscii hsame⟩

/-- Of what is listed, those that can be extensions are each stood for. -/
theorem ignoresCase_iff :
    IgnoresCase list ↔ ∀ l ∈ list, '.' ∉ l.toList → '/' ∉ l.toList → StandsFor list l := by
  constructor
  · intro h l hl hdot hseparator
    obtain ⟨p, hp⟩ : ∃ p : Path, p.extensionText? = some l := ⟨_, Path.extensionText?_after_stem hdot hseparator⟩
    have hincludes := (h (.file p) l rfl hp).2 ⟨l, hl, rfl⟩
    exact (includes_extensions_iff (e := .file p) rfl hp).1 hincludes
  · intro h e x file hx
    rw [includes_extensions_iff file hx]
    constructor
    · exact StandsFor.exists_lowercase
    · rintro ⟨l, hl, hsame⟩
      -- what is lowered to the same has the same marks, so this can be an extension as well
      have hmark {c : Char} (hc : c.toNat ≤ 0x40) (hmem : c ∉ x.toList) : c ∉ l.toList := by
        rwa [← Text.mem_lowercase_iff hc, hsame, Text.mem_lowercase_iff hc]
      obtain ⟨hdot, hseparator⟩ := Path.not_mem_extensionText? hx
      obtain ⟨l', hl', hstands⟩ := h l hl (hmark (by decide) hdot) (hmark (by decide) hseparator)
      exact ⟨l', hl', hstands.trans (congrArg String.toList hsame)⟩

/-- A list in lower case ignores the case of letters. -/
theorem ignoresCase_of_lower (h : ∀ l ∈ list, lowercase l = l) : IgnoresCase list := by
  refine ignoresCase_iff.2 fun l hl _ _ => ⟨l, hl, ?_⟩
  have hlower := Text.map_lowerAscii_lowercase l
  rw [h l hl] at hlower ⊢
  exact hlower

/-- An extension without its leading dots. -/
def undotted (s : String) : String := String.ofList (s.toList.dropWhile (· = '.'))

/-- A list of extensions ignores the case of letters exactly if one of its members stands for the lower case of each
that can be an extension; so does every list that is built of extensions, which are the same in lower case as what they
are listed as. No list includes a file whose extension is in lower case none of those listed. -/
theorem extensions_ignoresCase_iff (list : List String) :
    (IgnoresCase list ↔ ∀ l ∈ list, '.' ∉ l.toList → '/' ∉ l.toList → StandsFor list l) ∧
    (∀ es : List String, ofExtensions es = extensions list → IgnoresCase list ∧
      ∀ x, (∃ l ∈ list, lowercase l = lowercase x) ↔ ∃ e ∈ es, lowercase (undotted e) = lowercase x) ∧
    ∀ (e : Entry) (x : String), e.isDirectory = false → e.path.extensionText? = some x →
      (extensions list).includes e = true → ∃ l ∈ list, lowercase l = lowercase x := by
  refine ⟨ignoresCase_iff, ?_, ?_⟩
  · intro es hbuilt
    obtain rfl : es.map listed = list := extensions.inj hbuilt
    have hlower : ∀ l ∈ es.map listed, lowercase l = l := by
      intro l hl
      obtain ⟨e, -, rfl⟩ := List.mem_map.1 hl
      exact Text.lowercase_lowercase (undotted e)
    refine ⟨ignoresCase_of_lower hlower, fun x => ?_⟩
    constructor
    · rintro ⟨l, hl, hsame⟩
      obtain ⟨e, he, rfl⟩ := List.mem_map.1 hl
      exact ⟨e, he, (Text.lowercase_lowercase (undotted e)).symm.trans hsame⟩
    · rintro ⟨e, he, hsame⟩
      exact ⟨listed e, List.mem_map_of_mem he, (Text.lowercase_lowercase (undotted e)).trans hsame⟩
  · intro e x file hx hincludes
    exact ((includes_extensions_iff file hx).1 hincludes).exists_lowercase

/-- A file is left out although its extension is listed as it is, in a list that is read from a text. -/
theorem listed_extension_left_out :
    Json.readWith (read Json.maxLevels) "\x7b\"mode\":\"extensions\",\"extensions\":[\"É\"]\x7d" =
      .ok (extensions ["É"]) ∧
    (Path.ofText "/w/a.É").extensionText? = some "É" ∧
    (extensions ["É"]).includes (.file (Path.ofText "/w/a.É")) = false := by
  refine ⟨?_, ?_, ?_⟩ <;> decide +kernel

end ChangeRelay.Inclusion
