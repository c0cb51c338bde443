/-
The name of a file in its module. After the first component of a path there are only names and `..`
(`inner_of_components`), whose texts have no separator in them and are neither empty nor `.`. So a name
relative to a root, cut at the separators, is the texts of the components below the root, and where
the path is a text the name leads from the root to the path (`join_relativeTo?`).
-/
import ChangeRelay.Change.Delivered
import ChangeRelay.Proofs.Path.Within
import ChangeRelay.Proofs.Text.Utf8

namespace ChangeRelay

open String (utf8EncodeChar)

namespace Path

variable {p q root : Path} {s n bs : List UInt8} {c : Component} {cs rs ds : List Component}

/-! ## Segments of bytes and of texts -/

theorem not_mem_segments : ∀ bs : List UInt8, ∀ s ∈ segments bs, separator ∉ s
  | [] => by simp [segments]
  | b :: bs => by
    have ih := not_mem_segments bs
    by_cases hb : b = separator
    · rw [segments, if_pos hb]
      intro s hs
      rcases List.mem_cons.1 hs with rfl | hs
      · exact List.not_mem_nil
      · exact ih s hs
    · obtain ⟨t, ts, ht⟩ := List.exists_cons_of_ne_nil (segments_ne_nil bs)
      rw [segments, if_neg hb, ht]
      rw [ht, List.forall_mem_cons] at ih
      refine List.forall_mem_cons.2 ⟨?_, ih.2⟩
      rw [List.mem_cons, not_or]
      exact ⟨Ne.symm hb, ih.1⟩

/-- Bytes without a separator belong to the first segment of what follows them. -/
theorem segments_append_of_not_mem (hn : separator ∉ n) {t : List UInt8} {ts : List (List UInt8)}
    (h : segments bs = t :: ts) : segments (n ++ bs) = (n ++ t) :: ts := by
  induction n with
  | nil => exact h
  | cons b n ih =>
    rw [List.mem_cons, not_or] at hn
    rw [List.cons_append, segments, if_neg (Ne.symm hn.1), ih hn.2, List.cons_append]

/-- The code of a text is cut where the text is. -/
theorem segments_code (xs : List Char) :
    segments (xs.flatMap utf8EncodeChar) = (xs.splitOn '/').map (·.flatMap utf8EncodeChar) := by
  induction xs with
  | nil => rfl
  | cons x xs ih =>
    rw [List.flatMap_cons, List.splitOn_cons_eq_if_modifyHead]
    by_cases hx : x = '/'
    · subst hx
      rw [if_pos (beq_self_eq_true _), List.map_cons, ← ih]
      rfl
    · obtain ⟨t, ts, ht⟩ := List.exists_cons_of_ne_nil (List.splitOn_ne_nil '/' xs)
      rw [ht, List.map_cons] at ih
      rw [if_neg (by simpa using hx), ht, List.modifyHead_cons, List.map_cons, List.flatMap_cons]
      -- no other character has a separator in its code
      refine segments_append_of_not_mem (fun h => hx ?_) ih
      exact Utf8.eq_of_mem_code (by decide) h

/-- Bytes are cut at the separators where their text is, however it is spoiled between them. -/
theorem splitOn_decodeLossy (bs : List UInt8) :
    (Utf8.decodeLossy bs).toList.splitOn '/' = (segments bs).map fun s => (Utf8.decodeLossy s).toList := by
  have hpart {n : List UInt8} (hn : separator ∉ n) : '/' ∉ (Utf8.decodeLossy n).toList := fun h =>
    hn (Utf8.mem_of_mem_decodeLossy (by decide) h)
  induction hlength : bs.length using Nat.strong_induction_on generalizing bs with
  | _ length ih =>
    by_cases hmem : separator ∈ bs
    · obtain ⟨n, rest, rfl, hn⟩ := List.eq_append_cons_of_mem hmem
      have hrest := ih rest.length (by simp at hlength; omega) rest rfl
      rw [Utf8.decodeLossy_append (by decide), segments_append, segments_of_not_mem hn, List.map_append, ← hrest]
      exact List.splitOn_append_cons_self_of_not_mem (hpart hn) _
    · rw [segments_of_not_mem hmem, List.splitOn_eq_singleton (hpart hmem)]
      rfl

/-! ## The components after the first -/

/-- A component that can stand after another. -/
def Inner (c : Component) : Prop := c = .up ∨ ∃ n, IsEntryName n ∧ c = .name n

theorem inner_of_innerComponent? (hs : separator ∉ s) (h : innerComponent? s = some c) : Inner c := by
  unfold innerComponent? at h
  split at h
  · cases h
  rename_i hne
  split at h
  · cases h
  rename_i hdot
  split at h
  · exact .inl (Option.some.inj h).symm
  · rename_i hup
    exact .inr ⟨s, ⟨⟨hne, hs⟩, hdot, hup⟩, (Option.some.inj h).symm⟩

theorem Inner.innerComponent? (h : Inner c) : innerComponent? c.bytes = some c := by
  obtain rfl | ⟨n, ⟨⟨hne, -⟩, hdot, hup⟩, rfl⟩ := h
  · rfl
  · rw [Component.bytes, Path.innerComponent?, if_neg hne, if_neg hdot, if_neg hup]

theorem bytes_eq_of_innerComponent? (h : innerComponent? s = some c) : c.bytes = s := by
  unfold innerComponent? at h
  split at h
  · cases h
  split at h
  · cases h
  split at h
  · rename_i hup
    rw [← Option.some.inj h, hup]
    rfl
  · rw [← Option.some.inj h]
    rfl

/-- Components that stand after others are those of segments. -/
theorem components_after (h : p.components = rs ++ ds) (hrs : rs ≠ []) :
    ∀ c ∈ ds, ∃ s ∈ segments p.bytes, innerComponent? s = some c := by
  obtain ⟨t, ts, ht⟩ := List.exists_cons_of_ne_nil (segments_ne_nil p.bytes)
  obtain ⟨r, rs, rfl⟩ := List.exists_cons_of_ne_nil hrs
  unfold components at h
  rw [ht] at h ⊢
  intro c hc
  -- the first segment gives one component or none
  have hmem : c ∈ ts.filterMap innerComponent? := by
    dsimp only at h
    split at h
    · rw [List.singleton_append, List.cons_append, List.cons_eq_cons] at h
      exact h.2 ▸ List.mem_append_right _ hc
    split at h
    · rw [List.singleton_append, List.cons_append, List.cons_eq_cons] at h
      exact h.2 ▸ List.mem_append_right _ hc
    · cases hfirst : innerComponent? t with
      | none =>
        rw [hfirst, Option.toList_none, List.nil_append] at h
        exact h ▸ List.mem_append_right _ hc
      | some a =>
        rw [hfirst, Option.toList_some, List.singleton_append, List.cons_append, List.cons_eq_cons] at h
        exact h.2 ▸ List.mem_append_right _ hc
  obtain ⟨s, hs, hsome⟩ := List.mem_filterMap.1 hmem
  exact ⟨s, List.mem_cons_of_mem _ hs, hsome⟩

theorem inner_of_components (h : p.components = rs ++ ds) (hrs : rs ≠ []) (hc : c ∈ ds) : Inner c := by
  obtain ⟨s, hs, hsome⟩ := components_after h hrs c hc
  exact inner_of_innerComponent? (not_mem_segments _ s hs) hsome

/-! ## Their texts -/

theorem Inner.not_mem_bytes (h : Inner c) : separator ∉ c.bytes := by
  obtain rfl | ⟨n, hn, rfl⟩ := h
  · decide
  · exact hn.1.2

theorem Inner.not_mem_text (h : Inner c) : '/' ∉ c.text.toList := fun hmem =>
  h.not_mem_bytes (Utf8.mem_of_mem_decodeLossy (by decide) hmem)

theorem Inner.text_ne_empty (h : Inner c) : c.text ≠ "" := by
  intro htext
  have hbytes : c.bytes = [] := ((Utf8.decodeLossy_eq_iff (by decide)).1 htext).symm
  obtain rfl | ⟨n, hn, rfl⟩ := h
  · cases hbytes
  · exact hn.1.1 hbytes

theorem Inner.text_ne_dot (h : Inner c) : c.text ≠ "." := by
  intro htext
  have hbytes : c.bytes = [dot] := ((Utf8.decodeLossy_eq_iff (by decide)).1 htext).symm
  obtain rfl | ⟨n, hn, rfl⟩ := h
  · cases hbytes
  · exact hn.2.1 hbytes

theorem Inner.text_eq_up_iff (h : Inner c) : c.text = ".." ↔ c = .up := by
  refine ⟨fun htext => ?_, fun hc => hc ▸ by decide⟩
  have hbytes : c.bytes = [dot, dot] := ((Utf8.decodeLossy_eq_iff (by decide)).1 htext).symm
  obtain rfl | ⟨n, hn, rfl⟩ := h
  · rfl
  · exact absurd hbytes hn.2.2

/-! ## Names relative to a root -/

theorem relativeTo?_eq_some_iff {r : String} :
    p.relativeTo? root = some r ↔ ∃ ds, ds ≠ [] ∧ p.components = root.components ++ ds ∧
      r = String.intercalate "/" (ds.map Component.text) := by
  unfold relativeTo?
  constructor
  · intro h
    split at h
    · cases h
    · cases h
    · rename_i c cs hfollow
      exact ⟨c :: cs, List.cons_ne_nil _ _, following?_eq_some_iff.1 hfollow, (Option.some.inj h).symm⟩
  · rintro ⟨ds, hne, hds, rfl⟩
    obtain ⟨c, cs, rfl⟩ := List.exists_cons_of_ne_nil hne
    rw [following?_eq_some_iff.2 hds]

/-- What has a name relative to a root is all that lies below it. -/
theorem exists_relativeTo?_iff :
    (∃ r, p.relativeTo? root = some r) ↔ p.startsWith root = true ∧ ¬p.Same root := by
  constructor
  · rintro ⟨r, hr⟩
    obtain ⟨ds, -, hds, -⟩ := relativeTo?_eq_some_iff.1 hr
    have within : p.startsWith root = true := startsWith_iff.2 ⟨ds, hds.symm⟩
    refine ⟨within, fun h => ?_⟩
    rw [(relativeTo?_eq_none_iff within).2 h] at hr
    cases hr
  · rintro ⟨within, hsame⟩
    exact Option.ne_none_iff_exists'.1 fun hnone => hsame ((relativeTo?_eq_none_iff within).1 hnone)

theorem splitOn_relative (hne : ds ≠ []) (hds : ∀ c ∈ ds, Inner c) :
    (String.intercalate "/" (ds.map Component.text)).toList.splitOn '/' = ds.map (·.text.toList) := by
  rw [String.toList_intercalate, List.map_map]
  refine List.splitOn_intercalate '/' (fun l hl => ?_) (by simpa using hne)
  obtain ⟨c, hc, rfl⟩ := List.mem_map.1 hl
  exact (hds c hc).not_mem_text

/-- Where a path is a text, so are its components, and these texts are written with their bytes. -/
theorem encode_text {t : String} (ht : p.text? = some t) (h : p.components = rs ++ ds) (hrs : rs ≠ [])
    (hc : c ∈ ds) : Utf8.encode c.text = c.bytes := by
  obtain ⟨s, hs, hsome⟩ := components_after h hrs c hc
  rw [← Utf8.decode?_eq_some_iff.1 ht, Utf8.encode, segments_code] at hs
  obtain ⟨xs, -, rfl⟩ := List.mem_map.1 hs
  have hcode : c.bytes = Utf8.encode (String.ofList xs) := by
    rw [bytes_eq_of_innerComponent? hsome, Utf8.encode, String.toList_ofList]
  rw [Component.text, hcode, Utf8.decodeLossy_encode]

theorem segments_of_isAbsolute (h : p.isAbsolute = true) : [] ∈ segments p.bytes := by
  obtain ⟨bytes⟩ := p
  cases bytes with
  | nil => cases h
  | cons b bs =>
    rw [segments, if_pos (by simpa [isAbsolute] using h)]
    exact List.mem_cons_self

/-- The name of a path relative to a root leads from the root to the path. -/
theorem join_relativeTo? {t r : String} (ht : p.text? = some t) (hroot : root.components ≠ [])
    (hr : p.relativeTo? root = some r) : (root.join (ofText r)).Same p := by
  obtain ⟨ds, hne, hds, rfl⟩ := relativeTo?_eq_some_iff.1 hr
  have hinner : ∀ c ∈ ds, Inner c := fun c hc => inner_of_components hds hroot hc
  have hsegments : segments (ofText (String.intercalate "/" (ds.map Component.text))).bytes =
      ds.map Component.bytes := by
    rw [ofText, Utf8.encode, segments_code, splitOn_relative hne hinner, List.map_map]
    exact List.map_congr_left fun c hc => encode_text ht hds hroot hc
  generalize ofText (String.intercalate "/" (ds.map Component.text)) = q at hsegments
  have habs : ¬q.isAbsolute = true := fun h => by
    have hmem := segments_of_isAbsolute h
    rw [hsegments] at hmem
    obtain ⟨c, hc, hbytes⟩ := List.mem_map.1 hmem
    have hnone := (hinner c hc).innerComponent?
    rw [hbytes] at hnone
    cases hnone
  have hbytes : root.bytes ≠ [] := fun h => hroot (components_eq_nil_iff.2 h)
  rw [join, if_neg habs, if_neg hbytes, Same, components_child hbytes, hds, nameComponents, hsegments,
    List.filterMap_map]
  congr 1
  refine (List.filterMap_congr fun c hc => (hinner c hc).innerComponent?).trans ?_
  exact List.filterMap_some

end Path

namespace Change

variable {xs : List Char}

/-- The parts of the name of the file, between the separators. -/
def steps (c : Change) : List String := (c.relative.toList.splitOn '/').map String.ofList

theorem nil_mem_of_head? (h : xs.head? = some '/') : [] ∈ xs.splitOn '/' := by
  obtain ⟨ys, rfl⟩ := List.head?_eq_some_iff.1 h
  rw [← List.nil_append ('/' :: ys), List.splitOn_append_cons_self]
  exact List.mem_append_left _ (List.mem_singleton_self _)

theorem nil_mem_of_getLast? (h : xs.getLast? = some '/') : [] ∈ xs.splitOn '/' := by
  obtain ⟨ys, rfl⟩ := List.getLast?_eq_some_iff.1 h
  rw [List.splitOn_append_cons_self]
  exact List.mem_append_right _ (List.mem_singleton_self _)

/-- In a module whose root is not the path without steps, an entry has a change exactly if it is
contained and is not the root. The file keeps the path of the entry; its name in the module, cut at
the separators, is the texts of the components below the root, none of them empty or `.`, and `..`
only where the path has it; and a path that is a text is found again from the root by the name, which
so tells it from all other such paths. -/
theorem ofEntry?_names (m : SourceModule) (hroot : m.contentRoot.components ≠ []) :
    (∀ (e : Entry) (k : ChangeKind),
      ((∃ c, ofEntry? m e k = some c) ↔ m.contains e.path = true ∧ ¬e.path.Same m.contentRoot) ∧
      ∀ c, ofEntry? m e k = some c →
        c.path = e.path ∧
        (∃ below, e.path.components = m.contentRoot.components ++ below ∧
          c.steps = below.map Component.text ∧ ∀ x ∈ below, (x.text = ".." ↔ x = .up)) ∧
        c.relative.toList.head? ≠ some '/' ∧ c.relative.toList.getLast? ≠ some '/' ∧
        (∀ s ∈ c.steps, s ≠ "" ∧ s ≠ ".") ∧
        (e.path.text?.isSome → (m.contentRoot.join (.ofText c.relative)).Same e.path)) ∧
    ∀ (e f : Entry) (k l : ChangeKind) (c d : Change), ofEntry? m e k = some c →
      ofEntry? m f l = some d → e.path.text?.isSome → f.path.text?.isSome →
      c.relative = d.relative → e.path.Same f.path := by
  have hjoin : ∀ (e : Entry) (k : ChangeKind) (c : Change), ofEntry? m e k = some c →
      e.path.text?.isSome → (m.contentRoot.join (.ofText c.relative)).Same e.path := by
    intro e k c hc htext
    obtain ⟨t, ht⟩ := Option.isSome_iff_exists.1 htext
    obtain ⟨r, hr, rfl⟩ := Option.map_eq_some_iff.1 hc
    exact Path.join_relativeTo? ht hroot hr
  refine ⟨fun e k => ⟨?_, fun c hc => ?_⟩, fun e f k l c d hc hd he hf hcd => ?_⟩
  · refine Iff.trans ⟨?_, ?_⟩ Path.exists_relativeTo?_iff
    · rintro ⟨c, hc⟩
      obtain ⟨r, hr, -⟩ := Option.map_eq_some_iff.1 hc
      exact ⟨r, hr⟩
    · rintro ⟨r, hr⟩
      exact ⟨⟨m, k, r, .ofEntry e⟩, Option.map_eq_some_iff.2 ⟨r, hr, rfl⟩⟩
  · have hjoined := hjoin e k c hc
    obtain ⟨r, hr, rfl⟩ := Option.map_eq_some_iff.1 hc
    obtain ⟨below, hne, hbelow, rfl⟩ := Path.relativeTo?_eq_some_iff.1 hr
    have hinner : ∀ x ∈ below, Path.Inner x := fun x hx => Path.inner_of_components hbelow hroot hx
    have hsplit := Path.splitOn_relative hne hinner
    have hempty : [] ∉ below.map (·.text.toList) := by
      intro hmem
      obtain ⟨x, hx, hnil⟩ := List.mem_map.1 hmem
      exact (hinner x hx).text_ne_empty (String.toList_eq_nil_iff.1 hnil)
    have hsteps : (List.splitOn '/' (String.intercalate "/" (below.map Component.text)).toList).map
        String.ofList = below.map Component.text := by
      rw [hsplit, List.map_map]
      exact List.map_congr_left fun x _ => String.ofList_toList
    refine ⟨rfl, ⟨below, hbelow, hsteps, fun x hx => (hinner x hx).text_eq_up_iff⟩, ?_, ?_, ?_, hjoined⟩
    · exact fun h => hempty (hsplit ▸ nil_mem_of_head? h)
    · exact fun h => hempty (hsplit ▸ nil_mem_of_getLast? h)
    · intro s hs
      rw [steps, hsteps] at hs
      obtain ⟨x, hx, rfl⟩ := List.mem_map.1 hs
      exact ⟨(hinner x hx).text_ne_empty, (hinner x hx).text_ne_dot⟩
  · have hjoined := hjoin e k c hc he
    rw [hcd] at hjoined
    exact hjoined.symm.trans (hjoin f l d hd hf)

/-- The root `/a//b/` and in it `/a/./b/c/../d/`, which is text. -/
theorem ofEntry?_names_sample :
    (Path.components ⟨[47, 97, 47, 47, 98, 47]⟩ ≠ []) ∧
    ∃ c, ofEntry? ⟨⟨"m"⟩, ⟨"p"⟩, ⟨[47, 97, 47, 47, 98, 47]⟩⟩
        (.file ⟨[47, 97, 47, 46, 47, 98, 47, 99, 47, 46, 46, 47, 100, 47]⟩) .created = some c ∧
      c.steps = ["c", "..", "d"] ∧
      (Path.join ⟨[47, 97, 47, 47, 98, 47]⟩ (.ofText c.relative)).Same
        ⟨[47, 97, 47, 46, 47, 98, 47, 99, 47, 46, 46, 47, 100, 47]⟩ := by
  have hroot : Path.components ⟨[47, 97, 47, 47, 98, 47]⟩ ≠ [] := by decide
  obtain ⟨his, hnames⟩ := (ofEntry?_names ⟨⟨"m"⟩, ⟨"p"⟩, ⟨[47, 97, 47, 47, 98, 47]⟩⟩ hroot).1
    (.file ⟨[47, 97, 47, 46, 47, 98, 47, 99, 47, 46, 46, 47, 100, 47]⟩) .created
  obtain ⟨c, hc⟩ := his.2 ⟨by decide, by decide⟩
  obtain ⟨-, ⟨below, hbelow, hsteps, -⟩, -, -, -, hjoined⟩ := hnames c hc
  have hbelow' : below = [.name [99], .up, .name [100]] :=
    List.append_cancel_left (hbelow.symm.trans (by decide))
  refine ⟨hroot, c, hc, ?_, hjoined (by decide)⟩
  rw [hsteps, hbelow']
  decide

end Change
end ChangeRelay
