/-
What patterns mean. The pieces of a pattern stand for texts by rules that know nothing of a search (`Matches`).
A search that hits has read the text by these rules. That it misses no text which can be read by them is not so
clear: it stops for good where the text ends too early, though there are places left to try. Nothing is lost by
that in patterns whose `**` all stand at the start of a segment (`outcome_eq_hit_iff`), since every place at which
a search can go on later is one that the place where it stopped has seen too (`outcome_exhausted`). The reader
accepts no other patterns (`placed_of_readFrom`).
-/
import ChangeRelay.Pattern.Match
import Mathlib.Data.List.Chain

namespace ChangeRelay.Pattern

/-- The texts that the pieces of a pattern stand for. -/
inductive Matches : List Token → List Char → Prop
  | done : Matches [] []
  /-- One character that the piece accepts. -/
  | one {t : Token} {ts : List Token} {c : Char} {cs : List Char} (accepted : t.accepts c = true)
    (rest : Matches ts cs) : Matches (t :: ts) (c :: cs)
  /-- Any run of characters. -/
  | run {ts : List Token} {cs : List Char} (skipped : List Char) (rest : Matches ts cs) :
    Matches (.run :: ts) (skipped ++ cs)
  /-- No directories. -/
  | none {ts : List Token} {cs : List Char} (rest : Matches ts cs) : Matches (.directories :: ts) cs
  /-- Whole directories, each with the separator after it. -/
  | some {ts : List Token} {cs : List Char} (skipped : List Char) (rest : Matches ts cs) :
    Matches (.directories :: ts) (skipped ++ '/' :: cs)
  /-- All that is left, a name at the end included. -/
  | all {ts : List Token} (skipped : List Char) (rest : Matches ts []) :
    Matches (.directories :: ts) skipped

variable {t t₀ : Token} {ts : List Token} {c : Char} {cs u v w : List Char} {stops : Char → Bool}
  {next : List Char → Outcome}

/-! ## The places of a search -/

/-- Where a search goes on after it has passed characters: after each that it stops at, and at the end. -/
def placesAfter (stops : Char → Bool) : List Char → List (List Char)
  | [] => [[]]
  | c :: cs => if stops c then cs :: placesAfter stops cs else placesAfter stops cs

/-- Where a search goes on. -/
def places (stops : Char → Bool) (cs : List Char) : List (List Char) := cs :: placesAfter stops cs

theorem mem_placesAfter_iff :
    v ∈ placesAfter stops cs ↔ v = [] ∨ ∃ skipped c, stops c = true ∧ cs = skipped ++ c :: v := by
  induction cs with
  | nil => simp [placesAfter]
  | cons c cs ih =>
    have hcons : (∃ skipped d, stops d = true ∧ c :: cs = skipped ++ d :: v) ↔
        (stops c = true ∧ v = cs) ∨ ∃ skipped d, stops d = true ∧ cs = skipped ++ d :: v := by
      constructor
      · rintro ⟨_ | ⟨b, skipped⟩, d, hd, h⟩
        · obtain ⟨rfl, rfl⟩ := List.cons.inj h
          exact .inl ⟨hd, rfl⟩
        · exact .inr ⟨skipped, d, hd, (List.cons.inj h).2⟩
      · rintro (⟨hc, rfl⟩ | ⟨skipped, d, hd, rfl⟩)
        · exact ⟨[], c, hc, rfl⟩
        · exact ⟨c :: skipped, d, hd, rfl⟩
    rw [placesAfter, hcons]
    split
    · rename_i hc
      rw [List.mem_cons, ih]
      constructor
      · rintro (h | h | h); exacts [.inr (.inl ⟨hc, h⟩), .inl h, .inr (.inr h)]
      · rintro (h | ⟨-, h⟩ | h); exacts [.inr (.inl h), .inl h, .inr (.inr h)]
    · rename_i hc
      rw [ih]
      simp [hc]

theorem mem_places_iff : v ∈ places stops cs ↔
    v = cs ∨ v = [] ∨ ∃ skipped c, stops c = true ∧ cs = skipped ++ c :: v := by
  rw [places, List.mem_cons, mem_placesAfter_iff]

theorem mem_places_all_iff : v ∈ places (fun _ => true) cs ↔ v <:+ cs := by
  rw [mem_places_iff]
  constructor
  · rintro (rfl | rfl | ⟨skipped, c, -, rfl⟩)
    · exact List.suffix_refl _
    · exact List.nil_suffix
    · exact ⟨skipped ++ [c], by simp⟩
  · rintro ⟨skipped, rfl⟩
    rcases List.eq_nil_or_concat skipped with rfl | ⟨skipped, c, rfl⟩
    · exact .inl rfl
    · exact .inr (.inr ⟨skipped, c, rfl, by simp⟩)

theorem suffix_of_mem_places (h : v ∈ places stops cs) : v <:+ cs := by
  rw [← mem_places_all_iff, mem_places_iff]
  rcases mem_places_iff.1 h with h | h | ⟨skipped, c, -, h⟩
  exacts [.inl h, .inr (.inl h), .inr (.inr ⟨skipped, c, rfl, h⟩)]

theorem mem_places_trans (hv : v ∈ places stops cs) (hu : u ∈ places stops v) : u ∈ places stops cs := by
  rw [mem_places_iff] at *
  rcases hv with rfl | rfl | ⟨skipped, c, hc, rfl⟩
  · exact hu
  · rcases hu with rfl | rfl | ⟨skipped, c, -, h⟩
    · exact .inr (.inl rfl)
    · exact .inr (.inl rfl)
    · simp at h
  · rcases hu with rfl | rfl | ⟨more, d, hd, rfl⟩
    · exact .inr (.inr ⟨skipped, c, hc, rfl⟩)
    · exact .inr (.inl rfl)
    · exact .inr (.inr ⟨skipped ++ c :: more, d, hd, by simp⟩)

/-- The places after one of them are places of that one. -/
theorem places_pairwise (stops : Char → Bool) (cs : List Char) :
    (places stops cs).Pairwise fun u v => v ∈ places stops u := by
  refine .cons (fun v hv => List.mem_cons_of_mem _ hv) ?_
  induction cs with
  | nil => exact List.pairwise_singleton _ _
  | cons c cs ih =>
    unfold placesAfter
    split
    · exact .cons (fun v hv => List.mem_cons_of_mem _ hv) ih
    · exact ih

/-! ## The outcome of a search -/

/-- A search comes to what the first of its places comes to that does not miss. -/
theorem seekFromHere_eq (next : List Char → Outcome) (stops : Char → Bool) (cs : List Char) :
    seekFromHere next stops cs = (((places stops cs).map next).find? (· != .miss)).getD .miss := by
  have hseek : ∀ cs, seek next stops cs =
      (((placesAfter stops cs).map next).find? (· != .miss)).getD .miss := by
    intro cs
    induction cs with
    | nil => cases h : next [] <;> simp [seek, placesAfter, h]
    | cons c cs ih =>
      rw [seek, placesAfter]
      split
      · cases h : next cs <;> simp [h, ih]
      · exact ih
  rw [seekFromHere, places]
  cases h : next cs <;> simp [h, hseek]

theorem seekFromHere_hit (h : seekFromHere next stops cs = .hit) : ∃ v ∈ places stops cs, next v = .hit := by
  rw [seekFromHere_eq] at h
  cases hfind : ((places stops cs).map next).find? (· != .miss) with
  | none => rw [hfind] at h; cases h
  | some o =>
    rw [hfind] at h
    obtain ⟨v, hv, hnext⟩ := List.mem_map.1 (List.mem_of_find?_eq_some hfind)
    exact ⟨v, hv, hnext.trans h⟩

/-- Where a search stops for good, the places before are in vain, and those after are places of that one. -/
theorem seekFromHere_exhausted (h : seekFromHere next stops cs = .exhausted) :
    ∃ u ∈ places stops cs, next u = .exhausted ∧
      ∀ v ∈ places stops cs, v ∈ places stops u ∨ next v = .miss := by
  rw [seekFromHere_eq] at h
  cases hfind : ((places stops cs).map next).find? (· != .miss) with
  | none => rw [hfind] at h; cases h
  | some o =>
    rw [hfind] at h
    obtain rfl : o = .exhausted := h
    obtain ⟨-, before, after, hsplit, hbefore⟩ := List.find?_eq_some_iff_append.1 hfind
    obtain ⟨vs, us, hplaces, rfl, hus⟩ := List.map_eq_append_iff.1 hsplit
    obtain ⟨u, ws, rfl, hu, rfl⟩ := List.map_eq_cons_iff.1 hus
    have hpairwise := places_pairwise stops cs
    rw [hplaces] at hpairwise ⊢
    refine ⟨u, by simp, hu, fun v hv => ?_⟩
    rcases List.mem_append.1 hv with hv | hv
    · exact .inr (by simpa using hbefore _ (List.mem_map_of_mem hv))
    · rcases List.mem_cons.1 hv with rfl | hv
      · exact .inl List.mem_cons_self
      · exact .inl ((List.pairwise_cons.1 (List.pairwise_append.1 hpairwise).2.1).1 v hv)

/-- A search that stops for good has no hit from any of its places on, if no place at which it would stop has one. -/
theorem seekFromHere_ne_hit (h : seekFromHere next stops cs = .exhausted) (hv : v ∈ places stops cs)
    (stop : ∀ u, next u = .exhausted → ∀ w ∈ places stops u, next w ≠ .hit) : seekFromHere next stops v ≠ .hit := by
  intro hit
  obtain ⟨w, hw, hit⟩ := seekFromHere_hit hit
  obtain ⟨u, -, hu, hplaces⟩ := seekFromHere_exhausted h
  rcases hplaces w (mem_places_trans hv hw) with hwu | hmiss
  · exact stop u hu w hwu hit
  · rw [hit] at hmiss; cases hmiss

/-- A search that has a hit among its places finds one, if no place at which it would stop has a hit ahead. -/
theorem seekFromHere_eq_hit (hv : v ∈ places stops cs) (hit : next v = .hit)
    (stop : ∀ u, next u = .exhausted → ∀ w ∈ places stops u, next w ≠ .hit) :
    seekFromHere next stops cs = .hit := by
  cases h : seekFromHere next stops cs with
  | hit => rfl
  | exhausted =>
    obtain ⟨u, -, hu, hplaces⟩ := seekFromHere_exhausted h
    rcases hplaces v hv with hvu | hmiss
    · exact absurd hit (stop u hu v hvu)
    · rw [hit] at hmiss; cases hmiss
  | miss =>
    rw [seekFromHere_eq] at h
    cases hfind : ((places stops cs).map next).find? (· != .miss) with
    | none =>
      have := List.find?_eq_none.1 hfind _ (List.mem_map_of_mem hv)
      rw [hit] at this
      exact absurd rfl this
    | some o =>
      rw [hfind] at h
      obtain rfl : o = .miss := h
      exact absurd (List.find?_some hfind) (by simp)

/-! ## Pieces and their places -/

/-- A piece after which a segment starts. -/
def Token.Ends (t : Token) : Prop := t = .char '/' ∨ t = .directories

instance (t : Token) : Decidable t.Ends := inferInstanceAs (Decidable (_ ∨ _))

/-- A piece for directories may only stand where a segment starts. -/
def Token.Precedes (t u : Token) : Prop := u = .directories → t.Ends

/-- All pieces for directories stand where a segment starts; the pattern itself starts one. -/
def Placed (ts : List Token) : Prop := List.IsChain Token.Precedes (.char '/' :: ts)

/-- The places of a search for what follows a piece. -/
def Token.stopAfter (t : Token) : Char → Bool := if t.Ends then (· == '/') else fun _ => true

theorem outcome_nil (hrun : t ≠ .run) (hdirectories : t ≠ .directories) : outcome (t :: ts) [] = .exhausted := by
  cases t <;> first | rfl | contradiction

theorem outcome_cons (hrun : t ≠ .run) (hdirectories : t ≠ .directories) :
    outcome (t :: ts) (c :: cs) = if t.accepts c then outcome ts cs else .miss := by
  cases t <;> first | rfl | contradiction

theorem outcome_run : outcome (.run :: ts) cs = seekFromHere (outcome ts) (fun _ => true) cs := by
  cases cs <;> rfl

theorem outcome_directories : outcome (.directories :: ts) cs = seekFromHere (outcome ts) (· == '/') cs := by
  cases cs <;> rfl

/-- A text that ends too early at a place ends too early at every later one. -/
theorem outcome_exhausted (placed : List.IsChain Token.Precedes (t₀ :: ts)) (h : outcome ts cs = .exhausted)
    (hv : v ∈ places t₀.stopAfter cs) : outcome ts v ≠ .hit := by
  induction ts generalizing t₀ cs v with
  | nil => cases cs <;> cases h
  | cons t ts ih =>
    obtain ⟨hends, placed⟩ := List.isChain_cons_cons.1 placed
    by_cases hdirectories : t = .directories
    · subst hdirectories
      have hstops : t₀.stopAfter = (· == '/') := if_pos (hends rfl)
      rw [hstops] at hv
      rw [outcome_directories] at h ⊢
      exact seekFromHere_ne_hit h hv fun u hu w hw => ih placed hu hw
    by_cases hrun : t = .run
    · subst hrun
      rw [outcome_run] at h ⊢
      have hvcs : v ∈ places (fun _ => true) cs := mem_places_all_iff.2 (suffix_of_mem_places hv)
      exact seekFromHere_ne_hit h hvcs fun u hu w hw => ih placed hu hw
    -- the piece takes one character, after which a place of `cs` is a place of what is left of `cs`
    · obtain _ | ⟨d, v⟩ := v
      · rw [outcome_nil hrun hdirectories]
        exact Outcome.noConfusion
      obtain ⟨skipped, hskipped⟩ := suffix_of_mem_places hv
      obtain _ | ⟨c, cs⟩ := cs
      · simp at hskipped
      rw [outcome_cons hrun hdirectories] at h ⊢
      split at h
      · split
        · rename_i haccepts
          refine ih placed h (mem_places_iff.2 ?_)
          obtain _ | ⟨b, skipped⟩ := skipped
          · exact .inl (List.cons.inj hskipped).2
          · refine .inr (.inr ⟨skipped, d, ?_, (List.cons.inj hskipped).2.symm⟩)
            unfold Token.stopAfter
            split
            · rename_i hend
              rcases hend with rfl | rfl
              · exact haccepts
              · contradiction
            · rfl
        · exact Outcome.noConfusion
      · cases h

/-! ## Search and meaning -/

theorem matches_run_iff : Matches (.run :: ts) cs ↔ ∃ v, v <:+ cs ∧ Matches ts v := by
  constructor
  · intro h
    cases h with
    | one accepted => cases accepted
    | run skipped rest => exact ⟨_, List.suffix_append _ _, rest⟩
  · rintro ⟨v, ⟨skipped, rfl⟩, rest⟩
    exact .run skipped rest

theorem matches_directories_iff :
    Matches (.directories :: ts) cs ↔ ∃ v ∈ places (· == '/') cs, Matches ts v := by
  simp only [mem_places_iff, beq_iff_eq]
  constructor
  · intro h
    cases h with
    | one accepted => cases accepted
    | none rest => exact ⟨_, .inl rfl, rest⟩
    | some skipped rest => exact ⟨_, .inr (.inr ⟨skipped, '/', rfl, rfl⟩), rest⟩
    | all skipped rest => exact ⟨[], .inr (.inl rfl), rest⟩
  · rintro ⟨v, rfl | rfl | ⟨skipped, c, rfl, rfl⟩, rest⟩
    · exact .none rest
    · exact .all cs rest
    · exact .some skipped rest

/-- What a search hits can be read by the rules. -/
theorem matches_of_outcome (h : outcome ts cs = .hit) : Matches ts cs := by
  induction ts generalizing cs with
  | nil =>
    cases cs with
    | nil => exact .done
    | cons c cs => cases h
  | cons t ts ih =>
    by_cases hdirectories : t = .directories
    · subst hdirectories
      rw [outcome_directories] at h
      obtain ⟨v, hv, hit⟩ := seekFromHere_hit h
      exact matches_directories_iff.2 ⟨v, hv, ih hit⟩
    by_cases hrun : t = .run
    · subst hrun
      rw [outcome_run] at h
      obtain ⟨v, hv, hit⟩ := seekFromHere_hit h
      exact matches_run_iff.2 ⟨v, mem_places_all_iff.1 hv, ih hit⟩
    · cases cs with
      | nil => rw [outcome_nil hrun hdirectories] at h; cases h
      | cons c cs =>
        rw [outcome_cons hrun hdirectories] at h
        split at h
        · rename_i accepted
          exact .one accepted (ih h)
        · cases h

/-- What can be read by the rules is hit. -/
theorem outcome_of_matches (placed : List.IsChain Token.Precedes (t₀ :: ts)) (h : Matches ts cs) :
    outcome ts cs = .hit := by
  induction ts generalizing t₀ cs with
  | nil => cases h; rfl
  | cons t ts ih =>
    obtain ⟨-, placed⟩ := List.isChain_cons_cons.1 placed
    by_cases hdirectories : t = .directories
    · subst hdirectories
      obtain ⟨v, hv, rest⟩ := matches_directories_iff.1 h
      rw [outcome_directories]
      exact seekFromHere_eq_hit hv (ih placed rest) fun u hu w hw => outcome_exhausted placed hu hw
    by_cases hrun : t = .run
    · subst hrun
      obtain ⟨v, hv, rest⟩ := matches_run_iff.1 h
      rw [outcome_run]
      exact seekFromHere_eq_hit (mem_places_all_iff.2 hv) (ih placed rest)
        fun u hu w hw => outcome_exhausted placed hu hw
    · cases h with
      | one accepted rest =>
        rw [outcome_cons hrun hdirectories, if_pos accepted]
        exact ih placed rest
      | run => contradiction
      | none => contradiction
      | some => contradiction
      | all => contradiction

/-- A search hits exactly the texts that the pieces stand for. -/
theorem outcome_eq_hit_iff (placed : Placed ts) : outcome ts cs = .hit ↔ Matches ts cs :=
  ⟨matches_of_outcome, outcome_of_matches placed⟩

/-! ## What the reader accepts -/

/-- The character that has been read last when as many as are skipped have been read, too. -/
def lastRead (before : Option Char) (cs : List Char) : Nat → Option Char
  | 0 => before
  | skip + 1 => cs[skip]?

/-- Pieces that have been read, latest first, the start of the pattern counting as one: they are placed, and
after a separator a segment starts. -/
structure ReadSoFar (last : Option Char) (pieces : List Token) : Prop where
  placed : List.IsChain (fun u t => Token.Precedes t u) (pieces ++ [Token.char '/'])
  segment : last = none ∨ last = some '/' → ∀ t ∈ (pieces ++ [Token.char '/']).head?, t.Ends

variable {last before : Option Char} {pieces : List Token} {rest : List Char} {position skip : Nat}

theorem ReadSoFar.cons (h : ReadSoFar last pieces) (ht : t = .directories → last = none ∨ last = some '/')
    (hlast : before = none ∨ before = some '/' → t.Ends) : ReadSoFar before (t :: pieces) := by
  refine ⟨?_, fun hbefore u hu => ?_⟩
  · rw [List.cons_append, List.isChain_cons]
    exact ⟨fun u hu hdirectories => h.segment (ht hdirectories) u hu, h.placed⟩
  · obtain rfl : t = u := by simpa using hu
    exact hlast hbefore

theorem ReadSoFar.addDirectories (h : ReadSoFar last pieces) (hlast : last = none ∨ last = some '/') :
    ReadSoFar before (addDirectories pieces) := by
  unfold Pattern.addDirectories
  split
  · exact ⟨h.placed, fun _ u hu => .inr (by simpa using hu.symm)⟩
  · exact h.cons (fun _ => hlast) fun _ => .inr rfl

theorem getElem?_takeWhile {xs : List Char} (h : (xs.takeWhile (· ≠ ']')).length < xs.length) :
    xs[(xs.takeWhile (· ≠ ']')).length]? = some ']' := by
  induction xs with
  | nil => cases h
  | cons x xs ih =>
    by_cases hx : x = ']'
    · simp [hx]
    · rw [List.takeWhile_cons_of_pos (by simpa using hx)] at h ⊢
      exact ih (Nat.lt_of_succ_lt_succ h)

/-- A bracket stands for one character, and it is read up to its end. -/
theorem bracket?_eq_some (before : Option Char) {n : Nat} (h : bracket? rest = some (t, n)) :
    lastRead before rest n = some ']' ∧ t ≠ .directories := by
  unfold bracket? at h
  split at h
  · dsimp only at h
    split at h
    · rename_i hlength
      cases h
      exact ⟨getElem?_takeWhile hlength, Token.noConfusion⟩
    · cases h
  · cases h
  · dsimp only at h
    split at h
    · rename_i hlength
      cases h
      exact ⟨getElem?_takeWhile hlength, Token.noConfusion⟩
    · cases h
  · cases h

/-- Stars are read as one piece, which is placed. -/
theorem ReadSoFar.stars {ts : List Token} (h : ReadSoFar before pieces)
    (hstars : stars position before pieces rest = .ok (ts, skip)) :
    ReadSoFar (lastRead (some '*') rest skip) ts := by
  unfold Pattern.stars at hstars
  split at hstars
  · cases hstars
    exact h.cons Token.noConfusion (by simp [lastRead])
  · split at hstars
    · rename_i hbefore
      split at hstars
      · cases hstars
        exact h.addDirectories hbefore
      · cases hstars
        exact h.addDirectories hbefore
      · cases hstars
    · cases hstars
  · cases hstars

/-- Pieces are placed when they have been read. -/
theorem placed_of_readFrom {ts : List Token} (h : ReadSoFar (lastRead before rest skip) pieces)
    (hread : readFrom position before pieces skip rest = .ok ts) : Placed ts := by
  induction rest generalizing position before pieces skip with
  | nil =>
    obtain rfl : pieces.reverse = ts := by cases skip <;> exact Except.ok.inj hread
    have hplaced := h.placed
    rwa [← List.isChain_reverse, List.reverse_append] at hplaced
  | cons c rest ih =>
    cases skip with
    | succ skip =>
      have hlast : lastRead before (c :: rest) (skip + 1) = lastRead (some c) rest skip := by
        cases skip <;> rfl
      rw [hlast] at h
      exact ih h hread
    | zero =>
      rw [readFrom] at hread
      split at hread
      · rename_i hc
        have hany : ReadSoFar (lastRead (some c) rest 0) (.any :: pieces) :=
          h.cons Token.noConfusion (by simp [lastRead, hc])
        exact ih hany hread
      split at hread
      · rename_i hc
        subst hc
        cases hstars : Pattern.stars position before pieces rest with
        | error f => rw [hstars] at hread; cases hread
        | ok read =>
          rw [hstars] at hread
          exact ih (h.stars hstars) hread
      split at hread
      · cases hbracket : bracket? rest with
        | none => rw [hbracket] at hread; cases hread
        | some read =>
          rw [hbracket] at hread
          obtain ⟨hlast, ht⟩ := bracket?_eq_some (some c) hbracket
          refine ih (h.cons (fun hdirectories => absurd hdirectories ht) ?_) hread
          simp [hlast]
      · have hchar : ReadSoFar (lastRead (some c) rest 0) (.char c :: pieces) :=
          h.cons Token.noConfusion (by simp [lastRead, Token.Ends])
        exact ih hchar hread

/-- In a pattern that is read, all pieces for directories stand where a segment starts. -/
theorem placed_of_ofText {s : String} {p : Pattern} (h : ofText s = .ok p) : Placed p.tokens := by
  unfold ofText at h
  cases hread : readFrom 0 none [] 0 s.toList with
  | error f => rw [hread] at h; cases h
  | ok ts =>
    rw [hread] at h
    cases h
    refine placed_of_readFrom ⟨List.isChain_singleton _, fun _ t ht => .inl ?_⟩ hread
    simpa using ht.symm

/-- A pattern that is read accepts exactly the texts that its pieces stand for. -/
theorem accepts_iff_matches {s t : String} {p : Pattern} (h : ofText s = .ok p) :
    p.accepts t = true ↔ Matches p.tokens t.toList := by
  rw [accepts, beq_iff_eq, outcome_eq_hit_iff (placed_of_ofText h)]

end ChangeRelay.Pattern
