/-
Names and extensions. The names among the components of a path are segments of its bytes, whatever the start of the
path gives (`components_of_segments`). The name that a path ends in, cut at its last dot, has the extension of the
path: a text without dots and separators (`not_mem_extensionText?`), and any such text is the extension of some path
(`extensionText?_after_stem`).
-/
import ChangeRelay.Proofs.Path.Relative

namespace ChangeRelay.Path

variable {p : Path} {n s x : List UInt8} {ts : List (List UInt8)} {t : String}

/-! ## Names among the components -/

/-- The first segment gives a name as any other does, whatever else the start of a path gives. -/
theorem components_of_segments (h : segments p.bytes = s :: ts) :
    ∃ first : Option Component, p.components = first.toList ++ ts.filterMap innerComponent? ∧
      ∀ n, first = some (.name n) ↔ innerComponent? s = some (.name n) := by
  unfold components
  rw [h]
  dsimp only
  split
  · rename_i habsolute
    refine ⟨some .root, rfl, fun n => ?_⟩
    obtain ⟨bytes⟩ := p
    obtain ⟨bytes, rfl⟩ := List.head?_eq_some_iff.1 (eq_of_beq habsolute)
    rw [segments, if_pos rfl] at h
    rw [← (List.cons.inj h).1]
    simp [innerComponent?]
  split
  · rename_i hdot
    refine ⟨some .here, rfl, fun n => ?_⟩
    rw [hdot]
    simp [innerComponent?]
  · exact ⟨innerComponent? s, rfl, fun n => Iff.rfl⟩

/-- A name that one of the segments gives is that segment, and what gives the components below it follows. -/
theorem segments_of_filterMap {above below : List Component} {ss : List (List UInt8)}
    (h : ss.filterMap innerComponent? = above ++ .name n :: below) (hbelow : below ≠ []) :
    ∃ ts us, ss = ts ++ n :: us ∧ us ≠ [] := by
  obtain ⟨ts, rest, rfl, -, hrest⟩ := List.filterMap_eq_append_iff.1 h
  obtain ⟨passed, t, us, rfl, -, ht, hus⟩ := List.filterMap_eq_cons_iff.1 hrest
  have hn : n = t := bytes_eq_of_innerComponent? ht
  refine ⟨ts ++ passed, us, by rw [hn, List.append_assoc], ?_⟩
  rintro rfl
  exact hbelow hus.symm

/-- A name with components below it is a segment with others after it. -/
theorem segments_of_components {above below : List Component} (h : p.components = above ++ .name n :: below)
    (hbelow : below ≠ []) : ∃ ss us, segments p.bytes = ss ++ n :: us ∧ us ≠ [] := by
  obtain ⟨s, ts, hs⟩ := List.exists_cons_of_ne_nil (segments_ne_nil p.bytes)
  obtain ⟨first, hcomponents, hfirst⟩ := components_of_segments hs
  have later (above : List Component) (h : ts.filterMap innerComponent? = above ++ .name n :: below) :
      ∃ ss us, segments p.bytes = ss ++ n :: us ∧ us ≠ [] := by
    obtain ⟨ss, us, rfl, hus⟩ := segments_of_filterMap h hbelow
    exact ⟨s :: ss, us, hs, hus⟩
  rw [hcomponents] at h
  cases first with
  | none => exact later above h
  | some c =>
    rcases List.append_eq_cons_iff.1 h.symm with ⟨rfl, hc⟩ | ⟨above, rfl, h⟩
    · -- the name is the first segment, and so what is below it comes from the others
      obtain ⟨rfl, rfl⟩ := List.cons.inj hc
      have hn : n = s := bytes_eq_of_innerComponent? ((hfirst n).1 rfl)
      refine ⟨[], ts, by rw [hs, hn, List.nil_append], ?_⟩
      rintro rfl
      exact hbelow rfl
    · exact later above (List.cons.inj h).2

/-- A segment that gives a name is a component of that name. -/
theorem name_mem_components (hn : n ∈ segments p.bytes) (hname : innerComponent? n = some (.name n)) :
    .name n ∈ p.components := by
  obtain ⟨s, ts, hs⟩ := List.exists_cons_of_ne_nil (segments_ne_nil p.bytes)
  obtain ⟨first, hcomponents, hfirst⟩ := components_of_segments hs
  rw [hs] at hn
  rw [hcomponents, List.mem_append]
  rcases List.mem_cons.1 hn with rfl | hn
  · exact .inl (Option.mem_toList.2 ((hfirst n).2 hname))
  · exact .inr (List.mem_filterMap.2 ⟨n, hn, hname⟩)

theorem mem_segments_of_name_mem (h : .name n ∈ p.components) : n ∈ segments p.bytes := by
  obtain ⟨s, ts, hs⟩ := List.exists_cons_of_ne_nil (segments_ne_nil p.bytes)
  obtain ⟨first, hcomponents, hfirst⟩ := components_of_segments hs
  rw [hcomponents, List.mem_append] at h
  rw [hs]
  rcases h with h | h
  · have hname := (hfirst n).1 (Option.mem_toList.1 h)
    have hn : n = s := bytes_eq_of_innerComponent? hname
    exact hn ▸ List.mem_cons_self
  · obtain ⟨s', hs', hname⟩ := List.mem_filterMap.1 h
    have hn : n = s' := bytes_eq_of_innerComponent? hname
    exact List.mem_cons_of_mem _ (hn ▸ hs')

/-! ## Extensions -/

/-- The extension of a path as it is written, if it has one that is text. -/
def extensionText? (p : Path) : Option String := (p.fileName?.bind extensionOf?).bind Utf8.decode?

theorem extension?_eq (p : Path) : p.extension? = p.extensionText?.map Text.lowercase := rfl

theorem separator_not_mem_fileName? (h : p.fileName? = some n) : separator ∉ n := by
  unfold fileName? at h
  split at h
  · rename_i bs hlast
    obtain rfl := Option.some.inj h
    exact not_mem_segments _ _ (mem_segments_of_name_mem (List.mem_of_getLast? hlast))
  · cases h

/-- An extension is of the bytes of its name, and no dot is among them. -/
theorem of_extensionOf? (h : extensionOf? n = some x) : dot ∉ x ∧ x ⊆ n := by
  have hx : x = (n.reverse.takeWhile (· ≠ dot)).reverse := by
    unfold extensionOf? at h
    dsimp only at h
    split at h
    · cases h
    · cases h
    · exact (Option.some.inj h).symm
  subst hx
  constructor
  · intro hdot
    simpa using List.mem_takeWhile_imp (List.mem_reverse.1 hdot)
  · intro b hb
    exact List.mem_reverse.1 ((List.takeWhile_subset _) (List.mem_reverse.1 hb))

/-- What follows the last dot of a name is its extension, unless the dot is the first of its bytes. -/
theorem extensionOf?_append (hn : n ≠ []) (hx : dot ∉ x) : extensionOf? (n ++ dot :: x) = some x := by
  obtain ⟨b, bs, hrev⟩ := List.exists_cons_of_ne_nil (mt List.reverse_eq_nil_iff.1 hn)
  have hall : ∀ b ∈ x.reverse, decide (b ≠ dot) = true := fun b hb =>
    decide_eq_true fun h => hx (h ▸ List.mem_reverse.1 hb)
  have hname : (n ++ dot :: x).reverse = x.reverse ++ dot :: b :: bs := by simp [hrev]
  have hdrop : (x.reverse ++ dot :: b :: bs).dropWhile (· ≠ dot) = dot :: b :: bs := by
    rw [List.dropWhile_append_of_pos hall, List.dropWhile_cons_of_neg (by simp)]
  have htake : (x.reverse ++ dot :: b :: bs).takeWhile (· ≠ dot) = x.reverse := by
    rw [List.takeWhile_append_of_pos hall, List.takeWhile_cons_of_neg (by simp), List.append_nil]
  unfold extensionOf?
  simp only [hname, hdrop, htake, List.reverse_reverse]

theorem not_mem_extensionText? (h : p.extensionText? = some t) : '.' ∉ t.toList ∧ '/' ∉ t.toList := by
  obtain ⟨x, hx, hdecode⟩ := Option.bind_eq_some_iff.1 h
  obtain ⟨n, hn, hext⟩ := Option.bind_eq_some_iff.1 hx
  obtain ⟨hdot, hsubset⟩ := of_extensionOf? hext
  rw [Utf8.decode?_eq_some_iff] at hdecode
  subst hdecode
  exact ⟨fun hmem => hdot ((Utf8.mem_encode_iff (by decide)).2 hmem),
    fun hmem => separator_not_mem_fileName? hn (hsubset ((Utf8.mem_encode_iff (by decide)).2 hmem))⟩

/-- A name by itself is a path. -/
theorem components_of_isEntryName (h : IsEntryName p.bytes) : p.components = [.name p.bytes] := by
  obtain ⟨⟨hne, hseparator⟩, hdot, hup⟩ := h
  have habsolute : ¬ p.isAbsolute = true := by
    intro habsolute
    obtain ⟨rest, hrest⟩ := List.head?_eq_some_iff.1 (eq_of_beq habsolute)
    exact hseparator (hrest ▸ List.mem_cons_self)
  rw [components, segments_of_not_mem hseparator]
  simp [habsolute, hdot, hup, hne, innerComponent?]

/-- Any text without dots and separators is the extension of some path. -/
theorem extensionText?_after_stem (hdot : '.' ∉ t.toList) (hseparator : '/' ∉ t.toList) :
    (ofText ("a." ++ t)).extensionText? = some t := by
  have hbytes : (ofText ("a." ++ t)).bytes = [97] ++ dot :: Utf8.encode t := by
    rw [ofText, Utf8.encode, String.toList_append]
    rfl
  have hcode : dot ∉ Utf8.encode t := fun h => hdot ((Utf8.mem_encode_iff (by decide)).1 h)
  have hcode' : separator ∉ Utf8.encode t := fun h => hseparator ((Utf8.mem_encode_iff (by decide)).1 h)
  have hname : IsEntryName ([97] ++ dot :: Utf8.encode t) := by
    refine ⟨⟨List.cons_ne_nil _ _, ?_⟩, by simp, by simp [dot]⟩
    simp only [List.singleton_append, List.mem_cons, not_or]
    exact ⟨by decide, by decide, hcode'⟩
  have hfile : (ofText ("a." ++ t)).fileName? = some ([97] ++ dot :: Utf8.encode t) := by
    rw [fileName?, components_of_isEntryName (hbytes ▸ hname), hbytes]
    rfl
  rw [extensionText?, hfile, Option.bind_some, extensionOf?_append (List.cons_ne_nil _ _) hcode, Option.bind_some,
    Utf8.decode?_eq_some_iff]

end ChangeRelay.Path
