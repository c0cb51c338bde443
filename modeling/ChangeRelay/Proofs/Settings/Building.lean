/-
Settings as they are built up. A call changes one field and leaves the others, so after any calls the
settings have in each field what the calls about it say, in the end or taken together
(`BuiltBy.ofCalls`): the last choice of files, all patterns in order, links followed if that was ever
asked for, the last limit of depth, and the last time to drain in whole milliseconds, of which no more
count than a word of 64 bits holds.
-/
import ChangeRelay.Settings.Basic

namespace ChangeRelay.Settings

/-- A call by which settings are built up. -/
inductive Call where
  | inclusion (i : Inclusion)
  | metadata (pattern : String)
  | maxDepth (depth : UInt64)
  | followLinks
  | drainTimeout (nanoseconds : Nat)
  deriving DecidableEq

namespace Call

/-- The settings after a call. -/
def apply (s : Settings) : Call → Settings
  | .inclusion i => s.withInclusion i
  | .metadata pattern => s.withMetadata pattern
  | .maxDepth depth => s.withMaxDepth depth
  | .followLinks => s.followingLinks
  | .drainTimeout nanoseconds => s.withDrainTimeout nanoseconds

/-- The choice of files that a call makes. -/
def inclusion? : Call → Option Inclusion
  | .inclusion i => some i
  | _ => none

/-- The pattern that a call adds. -/
def pattern? : Call → Option String
  | .metadata pattern => some pattern
  | _ => none

/-- The limit that a call sets. -/
def depth? : Call → Option UInt64
  | .maxDepth depth => some depth
  | _ => none

/-- The time to drain that a call sets, in nanoseconds. -/
def nanoseconds? : Call → Option Nat
  | .drainTimeout nanoseconds => some nanoseconds
  | _ => none

end Call

/-- A time in nanoseconds without the part that makes no millisecond, and without what a word of 64 bits
of milliseconds does not hold. -/
def wholeMillis (nanoseconds : Nat) : Nat := min (nanoseconds / millisecond) maxMillis * millisecond

theorem drainTimeout_withDrainTimeout (s : Settings) (nanoseconds : Nat) :
    (s.withDrainTimeout nanoseconds).drainTimeout = wholeMillis nanoseconds := by
  have hmax : maxMillis + 1 = 2 ^ 64 := by decide
  have hlt : min (nanoseconds / millisecond) maxMillis < 2 ^ 64 := by omega
  rw [drainTimeout, withDrainTimeout, UInt64.toNat_ofNat', Nat.mod_eq_of_lt hlt, wholeMillis]

/-! ## What a call does -/

variable {s : Settings} {c : Call} {calls : List Call}

theorem inclusion_apply : (c.apply s).inclusion = c.inclusion?.getD s.inclusion := by
  cases c <;> rfl

theorem metadataPatterns_apply : (c.apply s).metadataPatterns = s.metadataPatterns ++ c.pattern?.toList := by
  cases c with
  | metadata pattern => rfl
  | _ => exact (List.append_nil _).symm

theorem followLinks_apply : (c.apply s).followLinks = true ↔ s.followLinks = true ∨ c = .followLinks := by
  cases c with
  | followLinks => simp [Call.apply, followingLinks]
  | _ => simp [Call.apply, withInclusion, withMetadata, withMaxDepth, withDrainTimeout]

theorem maxDepth_apply : (c.apply s).maxDepth = c.depth?.or s.maxDepth := by
  cases c <;> rfl

theorem drainTimeout_apply :
    (c.apply s).drainTimeout = (c.nanoseconds?.map wholeMillis).getD s.drainTimeout := by
  cases c with
  | drainTimeout nanoseconds => exact drainTimeout_withDrainTimeout s nanoseconds
  | _ => rfl

/-! ## What calls do -/

/-- The settings have in each field what the calls say about it. -/
structure BuiltBy (s : Settings) (calls : List Call) : Prop where
  inclusion : s.inclusion = (calls.filterMap Call.inclusion?).getLast?.getD standard.inclusion
  metadataPatterns : s.metadataPatterns = standard.metadataPatterns ++ calls.filterMap Call.pattern?
  followLinks : s.followLinks = true ↔ .followLinks ∈ calls
  maxDepth : s.maxDepth = (calls.filterMap Call.depth?).getLast?
  drainTimeout : s.drainTimeout =
    ((calls.filterMap Call.nanoseconds?).getLast?.map wholeMillis).getD standard.drainTimeout

namespace BuiltBy

theorem start : BuiltBy standard [] where
  inclusion := rfl
  metadataPatterns := (List.append_nil _).symm
  followLinks := by decide
  maxDepth := rfl
  drainTimeout := rfl

theorem getLast?_filterMap_concat {α : Type} (f : Call → Option α) :
    ((calls ++ [c]).filterMap f).getLast? = (f c).or (calls.filterMap f).getLast? := by
  rw [List.filterMap_append]
  cases h : f c with
  | none => simp [h]
  | some a => simp [h]

theorem apply (h : BuiltBy s calls) (c : Call) : BuiltBy (c.apply s) (calls ++ [c]) := by
  constructor
  · rw [inclusion_apply, h.inclusion, getLast?_filterMap_concat]
    cases c.inclusion? <;> rfl
  · rw [metadataPatterns_apply, h.metadataPatterns, List.filterMap_append, List.append_assoc]
    cases hc : c.pattern? <;> simp [hc]
  · rw [followLinks_apply, h.followLinks, List.mem_append, List.mem_singleton, eq_comm (a := c)]
  · rw [maxDepth_apply, h.maxDepth, getLast?_filterMap_concat]
  · rw [drainTimeout_apply, h.drainTimeout, getLast?_filterMap_concat]
    cases c.nanoseconds? <;> rfl

theorem foldl (h : BuiltBy s calls) (more : List Call) :
    BuiltBy (more.foldl Call.apply s) (calls ++ more) := by
  induction more generalizing s calls with
  | nil => rwa [List.append_nil]
  | cons c more ih =>
    have hrest := ih (h.apply c)
    rwa [List.append_assoc, List.singleton_append] at hrest

/-- Settings that are built up have in each field what the calls say about it. -/
theorem ofCalls (calls : List Call) : BuiltBy (calls.foldl Call.apply standard) calls := start.foldl calls

end BuiltBy
end ChangeRelay.Settings
