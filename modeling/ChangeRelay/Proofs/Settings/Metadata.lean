/-
What the standard patterns cover. The path of a file is metadata if its text names a directory `.idea` or
`.vscode`, which is to say that the name and a separator stand at the start or right after a separator, or if the
text has one of three endings (`standard_covers_iff`). Since a text is cut at the separators where the path is, a
directory that is named so is a segment of the path (`namesDirectory_display_iff`), and so a component with others
below it: a component that only ends in such a name is another component.
-/
import ChangeRelay.Proofs.Path.Names
import ChangeRelay.Proofs.Pattern.Meaning
import ChangeRelay.Settings.Metadata

namespace ChangeRelay

open Pattern (Matches Token matches_directories_iff matches_run_iff mem_places_iff)

/-! ## The patterns for directories and for endings -/

namespace Pattern

variable {ts : List Token} {xs cs : List Char}

theorem matches_chars_iff : Matches (xs.map .char ++ ts) cs ↔ ∃ rest, cs = xs ++ rest ∧ Matches ts rest := by
  induction xs generalizing cs with
  | nil => simp
  | cons x xs ih =>
    constructor
    · intro h
      cases h with
      | one accepted h =>
        obtain ⟨rest, rfl, hrest⟩ := ih.1 h
        exact ⟨rest, by rw [eq_of_beq accepted]; rfl, hrest⟩
    · rintro ⟨rest, rfl, hrest⟩
      exact .one (beq_self_eq_true x) (ih.2 ⟨rest, rfl, hrest⟩)

theorem matches_chars_iff_eq : Matches (xs.map .char) cs ↔ cs = xs := by
  rw [← List.append_nil (xs.map _), matches_chars_iff]
  constructor
  · rintro ⟨rest, rfl, h⟩
    cases h
    exact List.append_nil xs
  · rintro rfl
    exact ⟨[], (List.append_nil cs).symm, .done⟩

/-- A name of a directory with its separator, at any depth and with anything below it. -/
def ofDirectory (xs : List Char) : List Token := .directories :: (xs.map .char ++ [.directories])

/-- An ending, at any depth and after anything. -/
def ofEnding (xs : List Char) : List Token := .directories :: .run :: xs.map .char

theorem matches_ofDirectory_iff (hxs : xs ≠ []) : Matches (ofDirectory xs) cs ↔
    ∃ before after, cs = before ++ xs ++ after ∧ (before = [] ∨ before.getLast? = some '/') := by
  have hall (rest : List Char) : Matches [.directories] rest := .all rest .done
  simp only [ofDirectory, matches_directories_iff, matches_chars_iff, hall, and_true, mem_places_iff, beq_iff_eq]
  constructor
  · rintro ⟨v, hv, after, rfl⟩
    rcases hv with rfl | hnil | ⟨skipped, c, rfl, rfl⟩
    · exact ⟨[], after, rfl, .inl rfl⟩
    · exact absurd (List.append_eq_nil_iff.1 hnil).1 hxs
    · exact ⟨skipped ++ ['/'], after, by simp, .inr (by simp)⟩
  · rintro ⟨before, after, rfl, rfl | hlast⟩
    · exact ⟨_, .inl rfl, after, by simp⟩
    · obtain ⟨skipped, rfl⟩ := List.getLast?_eq_some_iff.1 hlast
      exact ⟨xs ++ after, .inr (.inr ⟨skipped, '/', rfl, by simp⟩), after, rfl⟩

theorem matches_ofEnding_iff : Matches (ofEnding xs) cs ↔ xs <:+ cs := by
  simp only [ofEnding, matches_directories_iff, matches_run_iff, matches_chars_iff_eq]
  constructor
  · rintro ⟨v, hv, w, hw, rfl⟩
    exact hw.trans (Pattern.suffix_of_mem_places hv)
  · intro h
    exact ⟨cs, mem_places_iff.2 (.inl rfl), xs, h, rfl⟩

end Pattern

/-! ## Directories that a text names -/

/-- A text names a directory if the name and a separator stand at its start or right after a separator. -/
def NamesDirectory (name s : String) : Prop :=
  ∃ before after : List Char, s.toList = before ++ name.toList ++ '/' :: after ∧
    (before = [] ∨ before.getLast? = some '/')

/-- Whole directories stand ahead of what they are joined with. -/
theorem exists_intercalate_append {rest : List (List Char)} (hrest : rest ≠ []) (above : List (List Char)) :
    ∃ before, ['/'].intercalate (above ++ rest) = before ++ ['/'].intercalate rest ∧
      (before = [] ∨ before.getLast? = some '/') := by
  induction above with
  | nil => exact ⟨[], rfl, .inl rfl⟩
  | cons a above ih =>
    obtain ⟨before, hbefore, hlast⟩ := ih
    have hne : above ++ rest ≠ [] := by simp [hrest]
    refine ⟨a ++ '/' :: before, ?_, .inr ?_⟩
    · rw [List.cons_append, List.intercalate_cons_of_ne_nil hne, hbefore]
      simp
    · rcases hlast with rfl | hlast
      · simp
      · simp [List.getLast?_cons, hlast]

/-- What a text names as directories is what it has between separators, but for the last. -/
theorem namesDirectory_iff {name s : String} (hname : '/' ∉ name.toList) :
    NamesDirectory name s ↔ ∃ above below, s.toList.splitOn '/' = above ++ name.toList :: below ∧ below ≠ [] := by
  constructor
  · rintro ⟨before, after, hs, hbefore⟩
    have hrest : (name.toList ++ '/' :: after).splitOn '/' = name.toList :: after.splitOn '/' :=
      List.splitOn_append_cons_self_of_not_mem hname after
    rw [hs, List.append_assoc]
    rcases hbefore with rfl | hlast
    · exact ⟨[], after.splitOn '/', by rw [List.nil_append, hrest, List.nil_append], List.splitOn_ne_nil _ _⟩
    · obtain ⟨before, rfl⟩ := List.getLast?_eq_some_iff.1 hlast
      refine ⟨before.splitOn '/', after.splitOn '/', ?_, List.splitOn_ne_nil _ _⟩
      rw [List.append_assoc, List.singleton_append, List.splitOn_append_cons_self, hrest]
  · rintro ⟨above, below, hs, hbelow⟩
    obtain ⟨before, hjoin, hbefore⟩ := exists_intercalate_append (List.cons_ne_nil name.toList below) above
    rw [← hs, List.intercalate_splitOn, List.intercalate_cons_of_ne_nil hbelow] at hjoin
    exact ⟨before, ['/'].intercalate below, by rw [hjoin]; simp, hbefore⟩

/-- The directories that the text of a path names are segments of the path. -/
theorem namesDirectory_display_iff {name : String} {p : Path} (hname : '/' ∉ name.toList)
    (hreplacement : Utf8.replacement ∉ name.toList) :
    NamesDirectory name p.display ↔
      ∃ above below, Path.segments p.bytes = above ++ Utf8.encode name :: below ∧ below ≠ [] := by
  rw [namesDirectory_iff hname, Path.display, Path.splitOn_decodeLossy]
  constructor
  · rintro ⟨texts, below, hsegments, hbelow⟩
    obtain ⟨above, segments, happend, rfl, hrest⟩ := List.map_eq_append_iff.1 hsegments
    obtain ⟨s, rest, rfl, hs, rfl⟩ := List.map_eq_cons_iff.1 hrest
    have hcode : Utf8.encode name = s := (Utf8.decodeLossy_eq_iff hreplacement).1 (String.toList_inj.1 hs)
    exact ⟨above, rest, by rw [happend, hcode], by simpa using hbelow⟩
  · rintro ⟨above, below, hsegments, hbelow⟩
    refine ⟨above.map fun s => (Utf8.decodeLossy s).toList, below.map fun s => (Utf8.decodeLossy s).toList, ?_,
      fun hnil => hbelow (List.map_eq_nil_iff.1 hnil)⟩
    rw [hsegments, List.map_append, List.map_cons, Utf8.decodeLossy_encode]

/-! ## The standard patterns -/

namespace MetadataRules

variable {p : Path}

/-- The directories in which editors keep what is metadata. -/
def standardDirectories : List String := [".idea", ".vscode"]

/-- The endings of the files of project models. -/
def standardEndings : List String := [".iml", ".ipr", ".iws"]

theorem ofText_of_mem_standard {pattern : Pattern} (h : pattern ∈ standard.patterns) :
    ∃ s, Pattern.ofText s = .ok pattern := by
  obtain ⟨s, -, hs⟩ := List.mem_filterMap.1 h
  refine ⟨s, ?_⟩
  cases hread : Pattern.ofText s with
  | error f => rw [hread] at hs; cases hs
  | ok read => rw [hread] at hs; rw [Option.some.inj hs]

theorem standard_patterns : standard.patterns.map (·.tokens) =
    [Pattern.ofDirectory (".idea".toList ++ ['/']), Pattern.ofEnding ".iml".toList, Pattern.ofEnding ".ipr".toList,
      Pattern.ofEnding ".iws".toList, Pattern.ofDirectory (".vscode".toList ++ ['/'])] := by
  decide +kernel

theorem standard_covers_iff_matches :
    standard.covers p = true ↔ ∃ ts ∈ standard.patterns.map (·.tokens), Matches ts p.display.toList := by
  rw [covers, List.any_eq_true]
  constructor
  · rintro ⟨pattern, hpattern, haccepts⟩
    obtain ⟨s, hs⟩ := ofText_of_mem_standard hpattern
    exact ⟨_, List.mem_map_of_mem hpattern, (Pattern.accepts_iff_matches hs).1 haccepts⟩
  · rintro ⟨ts, hts, hmatches⟩
    obtain ⟨pattern, hpattern, rfl⟩ := List.mem_map.1 hts
    obtain ⟨s, hs⟩ := ofText_of_mem_standard hpattern
    exact ⟨pattern, hpattern, (Pattern.accepts_iff_matches hs).2 hmatches⟩

theorem matches_directory_iff {name s : String} :
    Matches (Pattern.ofDirectory (name.toList ++ ['/'])) s.toList ↔ NamesDirectory name s := by
  rw [Pattern.matches_ofDirectory_iff (by simp), NamesDirectory]
  simp only [List.append_assoc, List.singleton_append]

theorem standard_covers_iff_text : standard.covers p = true ↔
    (∃ name ∈ standardDirectories, NamesDirectory name p.display) ∨
      ∃ ending ∈ standardEndings, ending.toList <:+ p.display.toList := by
  rw [standard_covers_iff_matches, standard_patterns]
  simp only [standardDirectories, standardEndings, List.exists_mem_cons_iff, List.not_mem_nil, false_and,
    exists_false, or_false, matches_directory_iff, Pattern.matches_ofEnding_iff]
  tauto

/-- No separator and no replacement character stands in the name of a standard directory, and it is no link. -/
theorem standardDirectories_plain : ∀ name ∈ standardDirectories, '/' ∉ name.toList ∧
    Utf8.replacement ∉ name.toList ∧
    Path.innerComponent? (Utf8.encode name) = some (.name (Utf8.encode name)) := by
  decide +kernel

/-- The standard patterns cover a path if its text names one of the directories or has one of the endings. Then all
that is strictly below such a directory is covered, and without such an ending only what has such a directory as a
component, so a component that merely ends in its name does not count. -/
theorem standard_covers_iff (p : Path) :
    (standard.covers p = true ↔
      (∃ name ∈ standardDirectories, NamesDirectory name p.display) ∨
        ∃ ending ∈ standardEndings, ending.toList <:+ p.display.toList) ∧
    (∀ name ∈ standardDirectories, ∀ above below,
      p.components = above ++ .name (Utf8.encode name) :: below → below ≠ [] → standard.covers p = true) ∧
    (standard.covers p = true → (∀ ending ∈ standardEndings, ¬ ending.toList <:+ p.display.toList) →
      ∃ name ∈ standardDirectories, .name (Utf8.encode name) ∈ p.components) := by
  refine ⟨standard_covers_iff_text, ?_, ?_⟩
  · intro name hname above below hcomponents hbelow
    obtain ⟨hseparator, hreplacement, -⟩ := standardDirectories_plain name hname
    have hsegments := Path.segments_of_components hcomponents hbelow
    exact standard_covers_iff_text.2
      (.inl ⟨name, hname, (namesDirectory_display_iff hseparator hreplacement).2 hsegments⟩)
  · intro hcovers hendings
    rcases standard_covers_iff_text.1 hcovers with ⟨name, hname, hnames⟩ | ⟨ending, hending, hsuffix⟩
    · obtain ⟨hseparator, hreplacement, hinner⟩ := standardDirectories_plain name hname
      obtain ⟨above, below, hsegments, -⟩ := (namesDirectory_display_iff hseparator hreplacement).1 hnames
      exact ⟨name, hname, Path.name_mem_components (by simp [hsegments]) hinner⟩
    · exact absurd hsuffix (hendings ending hending)

theorem standard_covers_workspace : standard.covers ⟨Utf8.encode "w/my.idea/.vscode/run/a.py"⟩ = true :=
  (standard_covers_iff ⟨Utf8.encode "w/my.idea/.vscode/run/a.py"⟩).2.1 ".vscode" (by simp [standardDirectories])
    [.name (Utf8.encode "w"), .name (Utf8.encode "my.idea")] [.name (Utf8.encode "run"), .name (Utf8.encode "a.py")]
    (by decide +kernel) (List.cons_ne_nil _ _)

example : standard.covers ⟨Utf8.encode "w/my.idea/run/a.py"⟩ = false := by decide +kernel

end MetadataRules

end ChangeRelay
