/-
A watcher and all that is done to it, on a file system that changes meanwhile. What is done is written down with how it
ended, and from the record it can be read which directories are watched and whether the watcher runs: each
success has its effect, and nothing else has any (`Course.Kept`). So neither that the watcher is stopped nor that a
directory goes makes a root go, no directory is a root twice, and a fault is told by the roots and by the
disk at that moment (`watch_error_iff`, `unwatch_error_iff`).
-/
import ChangeRelay.Watch.Feed
import Mathlib.Data.List.Induction
import Mathlib.Data.Set.Insert

namespace ChangeRelay.Watcher

variable {w w' : Watcher} {d : Disk} {p : Path}

/-! ## What each operation does -/

theorem isWatching_iff : w.isWatching p = true ↔ ∃ r ∈ w.roots, r.Same p := by
  simp [isWatching]

theorem not_isWatching_iff : w.isWatching p = false ↔ ∀ r ∈ w.roots, ¬ r.Same p := by
  simp [isWatching]

theorem roots_watch (h : w.watch d p = .ok w') :
    w.isWatching p = false ∧ w'.roots = w.roots ++ [p] ∧ w'.running = w.running := by
  unfold watch at h
  split at h
  · cases h
  · split at h
    · cases h
    · rename_i hnew
      cases h
      exact ⟨Bool.eq_false_iff.2 hnew, rfl, rfl⟩

theorem roots_unwatch (h : w.unwatch d p = .ok w') :
    w'.roots = (w.roots.filter fun r => !decide (r.Same p)) ∧ w'.running = w.running := by
  unfold unwatch at h
  split at h
  · cases h
    exact ⟨rfl, rfl⟩
  · cases h

theorem roots_start (w : Watcher) (d : Disk) : (w.start d).roots = w.roots := by
  unfold start
  split <;> rfl

theorem running_start (w : Watcher) (d : Disk) : (w.start d).running = true := by
  unfold start
  split
  · assumption
  · rfl

theorem start_of_running (h : w.running = true) (d : Disk) : w.start d = w := if_pos h

/-- To watch a path succeeds or fails in one of two ways: where there is no directory, whatever the roots are, and
where there is one that is a root already. -/
theorem watch_error_iff (w : Watcher) (d : Disk) (p : Path) (f : RelayError) :
    w.watch d p = .error f ↔
      (d.isDirectory p = false ∧ f = .directoryNotFound p.display) ∨
      (d.isDirectory p = true ∧ (∃ r ∈ w.roots, r.Same p) ∧ f = .alreadyWatching p.display) := by
  rw [← isWatching_iff]
  unfold watch
  cases d.isDirectory p with
  | false => simp [@eq_comm _ f]
  | true => cases w.isWatching p <;> simp [@eq_comm _ f]

theorem unwatch_error_iff (w : Watcher) (d : Disk) (p : Path) (f : RelayError) :
    w.unwatch d p = .error f ↔ (∀ r ∈ w.roots, ¬ r.Same p) ∧ f = .directoryNotFound p.display := by
  rw [← not_isWatching_iff]
  unfold unwatch
  cases w.isWatching p <;> simp [@eq_comm _ f]

/-! ## Courses -/

/-- What may be done to a watcher, or happen to the file system around it. -/
inductive Action where
  | watch (p : Path)
  | unwatch (p : Path)
  | start
  | stop
  /-- The file system comes to be another one, of which the watcher notices a change. -/
  | change (after : Disk) (e : Edit)

namespace Action

/-- The watcher after something has been done to it, on the file system before. -/
def perform (w : Watcher) (d : Disk) : Action → Except RelayError Watcher
  | .watch p => w.watch d p
  | .unwatch p => w.unwatch d p
  | .start => .ok (w.start d)
  | .stop => .ok w.stop
  | .change after e => .ok (w.observe d after e).2

/-- The file system after an action. -/
def diskAfter (d : Disk) : Action → Disk
  | .change after _ => after
  | _ => d

/-- Whether the watcher is to run from now on, if that is what is decided. -/
def switch? : Action → Option Bool
  | .start => some true
  | .stop => some false
  | _ => none

end Action

/-- What has been done, the oldest first, each with the fault that it ended in, if any. -/
abbrev Log := List (Action × Option RelayError)

/-- The paths that are watched after one more entry of a log. -/
def watchedAfter (ps : Set Path) : Action × Option RelayError → Set Path
  | (.watch p, none) => insert p ps
  | (.unwatch p, none) => { q ∈ ps | ¬ q.Same p }
  | _ => ps

/-- The paths that are watched by a log: those of the successful calls to watch one, less those of the successful calls
to unwatch one. -/
def watchedBy (log : Log) : Set Path := log.foldl watchedAfter ∅

/-- Whether a watcher runs by what has been done: of starting and stopping it, it was started last. -/
def runsBy (as : List Action) : Prop := (as.filterMap Action.switch?).getLast? = some true

/-- A watcher, the file system around it, and what has been done. -/
structure Course where
  watcher : Watcher
  disk : Disk
  log : Log

namespace Course

/-- Nothing has been done yet. -/
def begin (d : Disk) : Course := ⟨.idle, d, []⟩

/-- Goes on with an action. Where it fails the watcher stays as it is. -/
def act (c : Course) (a : Action) : Course :=
  match a.perform c.watcher c.disk with
  | .ok w => ⟨w, a.diskAfter c.disk, c.log ++ [(a, none)]⟩
  | .error f => ⟨c.watcher, a.diskAfter c.disk, c.log ++ [(a, some f)]⟩

/-- Does some things, one after the other. -/
def after (d : Disk) (as : List Action) : Course := as.foldl act (begin d)

/-- A watcher is as its log has it, and no two of its roots are the same. -/
structure Kept (c : Course) : Prop where
  apart : c.watcher.roots.Pairwise fun p q => ¬ p.Same q
  watched : ∀ p, p ∈ c.watcher.roots ↔ p ∈ watchedBy c.log
  running : c.watcher.running = true ↔ runsBy (c.log.map (·.1))

end Course

variable {c : Course} {a : Action} {log : Log} {f? : Option RelayError}

theorem watchedBy_append (log : Log) (e : Action × Option RelayError) :
    watchedBy (log ++ [e]) = watchedAfter (watchedBy log) e := by
  rw [watchedBy, List.foldl_append]
  rfl

theorem runsBy_append (as : List Action) (a : Action) :
    runsBy (as ++ [a]) ↔ a.switch?.elim (runsBy as) (· = true) := by
  unfold runsBy
  rw [List.filterMap_append]
  cases h : a.switch? <;> simp [h]

namespace Course

theorem begin_kept (d : Disk) : (begin d).Kept :=
  ⟨.nil, by simp [begin, idle, watchedBy], by simp [begin, idle, runsBy]⟩

/-- Where a path is watched that was not, the others stay and it is apart from them. -/
theorem Kept.watch (hc : c.Kept) (h : c.watcher.watch c.disk p = .ok w') (d : Disk) :
    Kept ⟨w', d, c.log ++ [(.watch p, none)]⟩ := by
  obtain ⟨hnew, hroots, hrunning⟩ := roots_watch h
  rw [not_isWatching_iff] at hnew
  refine ⟨?_, fun q => ?_, ?_⟩
  · rw [hroots, List.pairwise_append]
    refine ⟨hc.apart, List.pairwise_singleton _ _, fun r hr q hq => ?_⟩
    rw [List.mem_singleton.1 hq]
    exact hnew r hr
  · rw [hroots, List.mem_append, hc.watched, watchedBy_append]
    simp [watchedAfter, or_comm]
  · rw [hrunning, hc.running, List.map_append, List.map_singleton, runsBy_append]
    rfl

theorem Kept.unwatch (hc : c.Kept) (h : c.watcher.unwatch c.disk p = .ok w') (d : Disk) :
    Kept ⟨w', d, c.log ++ [(.unwatch p, none)]⟩ := by
  obtain ⟨hroots, hrunning⟩ := roots_unwatch h
  refine ⟨?_, fun q => ?_, ?_⟩
  · rw [hroots]
    exact hc.apart.filter _
  · rw [hroots, List.mem_filter, hc.watched, watchedBy_append]
    simp [watchedAfter]
  · rw [hrunning, hc.running, List.map_append, List.map_singleton, runsBy_append]
    rfl

/-- What neither adds nor removes a root leaves the roots, and decides at most whether the watcher runs. -/
theorem Kept.of_roots (hc : c.Kept) (hroots : w'.roots = c.watcher.roots)
    (hwatched : watchedAfter (watchedBy c.log) (a, f?) = watchedBy c.log)
    (hrunning : w'.running = a.switch?.getD c.watcher.running) (d : Disk) : Kept ⟨w', d, c.log ++ [(a, f?)]⟩ := by
  refine ⟨hroots ▸ hc.apart, fun q => ?_, ?_⟩
  · rw [hroots, hc.watched, watchedBy_append, hwatched]
  · rw [hrunning, List.map_append, List.map_singleton, runsBy_append]
    cases a.switch? with
    | none => exact hc.running
    | some b => rfl

theorem Kept.act (hc : c.Kept) (a : Action) : (c.act a).Kept := by
  unfold Course.act
  split
  · rename_i w hw
    cases a with
    | watch p => exact hc.watch hw _
    | unwatch p => exact hc.unwatch hw _
    | start =>
      cases hw
      exact hc.of_roots (roots_start _ _) rfl (running_start _ _) _
    | stop =>
      cases hw
      refine hc.of_roots ?_ rfl ?_ _ <;> rfl
    | change after e =>
      cases hw
      refine hc.of_roots ?_ rfl ?_ _ <;> rfl
  · rename_i f hf
    -- only calls to watch and to unwatch fail, and these do not decide whether the watcher runs
    cases a with
    | watch p => refine hc.of_roots ?_ rfl ?_ _ <;> rfl
    | unwatch p => refine hc.of_roots ?_ rfl ?_ _ <;> rfl
    | _ => cases hf

theorem after_append (d : Disk) (as : List Action) (a : Action) : after d (as ++ [a]) = (after d as).act a := by
  rw [after, List.foldl_append]
  rfl

theorem after_kept (d : Disk) (as : List Action) : (after d as).Kept := by
  induction as using List.reverseRecOn with
  | nil => exact begin_kept d
  | append_singleton as a ih =>
    rw [after_append]
    exact ih.act a

theorem log_act (c : Course) (a : Action) : (c.act a).log.map (·.1) = c.log.map (·.1) ++ [a] := by
  unfold act
  split <;> exact List.map_append

/-- A log tells what has been done. -/
theorem log_after (d : Disk) (as : List Action) : (after d as).log.map (·.1) = as := by
  induction as using List.reverseRecOn with
  | nil => rfl
  | append_singleton as a ih => rw [after_append, log_act, ih]

theorem act_of_error {f : RelayError} (h : a.perform c.watcher c.disk = .error f) :
    (c.act a).watcher = c.watcher ∧ (c.act a).log = c.log ++ [(a, some f)] := by
  unfold act
  rw [h]
  exact ⟨rfl, rfl⟩

end Course

/-- A watcher after anything has been done to it, on a file system that has changed in any way meanwhile. No two roots
are the same; what they are, and whether the watcher runs, is read off the record. To watch a path fails exactly where
there is no directory at that moment, or the same path is a root; to unwatch one fails exactly where none is the same.
What fails leaves the watcher. To start and to stop it leave the roots, and to do so again changes nothing. -/
theorem after_course (d : Disk) (as : List Action) :
    let c := Course.after d as
    c.log.map (·.1) = as ∧
    (c.watcher.roots.Pairwise fun p q => ¬ p.Same q) ∧ { p | p ∈ c.watcher.roots } = watchedBy c.log ∧
    (c.watcher.running = true ↔ runsBy as) ∧
    (∀ p f, c.watcher.watch c.disk p = .error f ↔
      (c.disk.isDirectory p = false ∧ f = .directoryNotFound p.display) ∨
      (c.disk.isDirectory p = true ∧ (∃ r ∈ c.watcher.roots, r.Same p) ∧ f = .alreadyWatching p.display)) ∧
    (∀ p f, c.watcher.unwatch c.disk p = .error f ↔
      (∀ r ∈ c.watcher.roots, ¬ r.Same p) ∧ f = .directoryNotFound p.display) ∧
    (∀ a f, a.perform c.watcher c.disk = .error f →
      (c.act a).watcher = c.watcher ∧ (c.act a).log = c.log ++ [(a, some f)]) ∧
    (c.watcher.start c.disk).roots = c.watcher.roots ∧ c.watcher.stop.roots = c.watcher.roots ∧
    (∀ d', (c.watcher.start c.disk).start d' = c.watcher.start c.disk) ∧
    c.watcher.stop.stop = c.watcher.stop := by
  intro c
  have hc : c.Kept := Course.after_kept d as
  have hlog : c.log.map (·.1) = as := Course.log_after d as
  refine ⟨hlog, hc.apart, Set.ext hc.watched, hlog ▸ hc.running, watch_error_iff _ _, unwatch_error_iff _ _,
    fun a f => Course.act_of_error, roots_start _ _, rfl, start_of_running (running_start _ _), rfl⟩

end ChangeRelay.Watcher
