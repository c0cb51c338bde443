/-
What may happen to a delivery, in any order: calls are notified, the next call is handed over to its engine,
which succeeds, fails or never returns, and the delivery is aborted. A hand-over is taken as a whole: what
happens while an engine is busy with a call comes to the same as if it happened afterwards.

Whatever happens, the calls that engines have been given are the first of those that were notified, each
once and in their order, and unless the delivery has been aborted the others wait (`Serves`). Engines that
fail make no difference (`after_healed`), nothing follows a call that is stuck (`after_stuck`), and nothing
at all happens once the delivery has been aborted (`after_abort`).
-/
import ChangeRelay.Queue.Delivery
import Mathlib.Data.List.Basic

namespace ChangeRelay.Delivery

variable {κ : Type}

/-! ## Events -/

/-- What may happen to a delivery. -/
inductive Event (κ : Type) where
  | notify (c : κ)
  /-- The next call is handed over, if there is one and engines have returned, and this is what its
  engine does with it. -/
  | handOver (r : Reaction)
  /-- The delivery is aborted: the moment at which the cancellation takes effect. -/
  | abort
  deriving DecidableEq, Repr

/-- Lets something happen. -/
def act (d : Delivery κ) : Event κ → Delivery κ
  | .notify c => d.accept c
  | .handOver r => d.step fun _ => r
  | .abort => d.abort

/-- Lets some things happen, one after the other. -/
def after (d : Delivery κ) (es : List (Event κ)) : Delivery κ := es.foldl act d

/-- The call that is notified by an event, if one is. -/
def Event.call? : Event κ → Option κ
  | .notify c => some c
  | _ => none

/-- The calls that have been notified, in their order. -/
def notified (es : List (Event κ)) : List κ := es.filterMap Event.call?

/-- The event in which an engine that failed had succeeded. -/
def Event.healed : Event κ → Event κ
  | .handOver .failed => .handOver .done
  | e => e

/-- Engines return, and the delivery is not aborted. -/
def Event.Harmless (e : Event κ) : Prop := e ≠ .abort ∧ e ≠ .handOver .stuck

variable {d : Delivery κ} {e : Event κ} {es front back : List (Event κ)} {c : κ} {pending cs : List κ}

theorem after_append : d.after (es ++ back) = (d.after es).after back := List.foldl_append

theorem after_cons : d.after (e :: es) = (d.act e).after es := rfl

theorem notified_append : notified (es ++ back) = notified es ++ notified back := List.filterMap_append

theorem notified_map_notify (cs : List κ) : notified (cs.map .notify) = cs := by
  unfold notified
  rw [List.filterMap_map]
  exact List.filterMap_some

/-! ## One event -/

theorem step_of_not_open (react : κ → Reaction) (h : d.state ≠ .open) : d.step react = d := by
  unfold step
  split
  · rename_i hopen _
    exact absurd hopen h
  · rfl

/-- A delivery that has been aborted stays as it is. -/
theorem act_abort (d : Delivery κ) (e : Event κ) : d.abort.act e = d.abort := by
  cases e with
  | notify c => rfl
  | handOver r => exact step_of_not_open (d := d.abort) (fun _ => r) (by simp [abort])
  | abort => rfl

/-- While an engine does not return, or after it has been aborted, a delivery delivers nothing. -/
theorem act_of_not_open (h : d.state ≠ .open) (e : Event κ) :
    (d.act e).delivered = d.delivered ∧ (d.act e).state ≠ .open := by
  cases e with
  | notify c =>
    rw [act, accept]
    split
    · exact ⟨rfl, h⟩
    · exact ⟨rfl, h⟩
  | handOver r =>
    rw [act, step_of_not_open _ h]
    exact ⟨rfl, h⟩
  | abort => exact ⟨rfl, nofun⟩

theorem act_healed (d : Delivery κ) (e : Event κ) : d.act e.healed = d.act e := by
  cases e with
  | handOver r => cases r <;> rfl
  | _ => rfl

theorem act_state_of_harmless (h : d.state = .open) (he : e.Harmless) : (d.act e).state = .open := by
  cases e with
  | notify c =>
    rw [act, accept]
    split
    · exact h
    · exact h
  | handOver r =>
    have hr : r ≠ .stuck := fun hr => he.2 (hr ▸ rfl)
    rw [act, step]
    split
    · exact if_neg hr
    · exact h
  | abort => exact absurd rfl he.1

/-- Only by being aborted is a delivery aborted. -/
theorem act_state_ne_aborted (h : d.state ≠ .aborted) (he : e ≠ .abort) : (d.act e).state ≠ .aborted := by
  cases e with
  | notify c =>
    rw [act, accept]
    split
    · exact h
    · exact h
  | handOver r =>
    rw [act, step]
    split
    · dsimp only
      split <;> nofun
    · exact h
  | abort => exact absurd rfl he

/-! ## Order -/

/-- The delivery serves a list of calls: engines have been given the first of them, and unless the
delivery has been aborted the others wait. -/
structure Serves (cs : List κ) (d : Delivery κ) : Prop where
  delivered : d.delivered <+: cs
  waiting : d.state ≠ .aborted → d.delivered ++ d.pending = cs

theorem idle_serves : (idle : Delivery κ).Serves [] := ⟨List.prefix_rfl, fun _ => rfl⟩

/-- Whatever happens, the calls that are served are those notified. -/
theorem Serves.act (h : d.Serves cs) (e : Event κ) : (d.act e).Serves (cs ++ notified [e]) := by
  cases e with
  | notify c =>
    have hcalls : cs ++ notified [.notify c] = cs ++ [c] := rfl
    rw [hcalls]
    refine ⟨?_, ?_⟩
    · rw [Delivery.act, accept]
      split <;> exact h.delivered.trans (List.prefix_append _ _)
    · rw [Delivery.act, accept]
      split
      · rename_i haborted
        exact fun hne => absurd haborted hne
      · rename_i hne
        intro _
        rw [← List.append_assoc, h.waiting hne]
  | handOver r =>
    have hcalls : cs ++ notified [.handOver r] = cs := List.append_nil cs
    rw [hcalls, Delivery.act, step]
    split
    · rename_i c pending hopen hpending
      -- the call that is handed over moves from those that wait to those that are delivered
      have hall := h.waiting (by rw [hopen]; nofun)
      rw [hpending, List.append_cons] at hall
      exact ⟨⟨pending, hall⟩, fun _ => hall⟩
    · exact h
  | abort =>
    have hcalls : cs ++ notified [.abort] = cs := List.append_nil cs
    rw [hcalls]
    exact ⟨h.delivered, fun hne => absurd rfl hne⟩

theorem Serves.after (h : d.Serves cs) : (d.after es).Serves (cs ++ notified es) := by
  induction es generalizing d cs with
  | nil => exact (List.append_nil cs).symm ▸ h
  | cons e es ih =>
    have hcalls : cs ++ notified (e :: es) = cs ++ notified [e] ++ notified es := by
      rw [List.append_assoc, ← notified_append, List.singleton_append]
    rw [hcalls]
    exact ih (h.act e)

theorem idle_after_serves (es : List (Event κ)) : (idle.after es).Serves (notified es) :=
  idle_serves.after

/-! ## Failures, engines that do not return, and abortion -/

theorem after_healed (d : Delivery κ) (es : List (Event κ)) : d.after (es.map .healed) = d.after es := by
  unfold after
  rw [List.foldl_map]
  congr 1
  funext d e
  exact act_healed d e

theorem after_state_ne_aborted (h : d.state ≠ .aborted) (hes : .abort ∉ es) :
    (d.after es).state ≠ .aborted := by
  induction es generalizing d with
  | nil => exact h
  | cons e es ih =>
    rw [List.mem_cons, not_or] at hes
    exact ih (act_state_ne_aborted h fun he => hes.1 he.symm) hes.2

theorem after_of_not_open (h : d.state ≠ .open) (es : List (Event κ)) :
    (d.after es).delivered = d.delivered := by
  induction es generalizing d with
  | nil => rfl
  | cons e es ih =>
    obtain ⟨hdelivered, hstate⟩ := act_of_not_open h e
    rw [after_cons, ih hstate, hdelivered]

/-- A call whose engine never returns is the last that is delivered. -/
theorem after_stuck (hopen : d.state = .open) (hpending : d.pending = c :: pending)
    (es : List (Event κ)) : (d.after (.handOver .stuck :: es)).delivered = d.delivered ++ [c] := by
  have hstep : d.act (.handOver .stuck) = ⟨pending, d.delivered ++ [c], .blocked⟩ := by
    rw [act, step, hopen, hpending]
    rfl
  rw [after_cons, hstep, after_of_not_open (by simp)]

/-- Once a delivery has been aborted nothing happens, whatever is notified, handed over or aborted. -/
theorem after_abort (d : Delivery κ) (es : List (Event κ)) : d.after (.abort :: es) = d.abort := by
  have h : ∀ es : List (Event κ), d.abort.after es = d.abort := by
    intro es
    induction es with
    | nil => rfl
    | cons e es ih => rw [after_cons, act_abort, ih]
  exact h es

/-! ## Handing everything over -/

theorem after_state_of_harmless (h : d.state = .open) (hes : ∀ e ∈ es, e.Harmless) :
    (d.after es).state = .open := by
  induction es generalizing d with
  | nil => exact h
  | cons e es ih =>
    obtain ⟨he, hes⟩ := List.forall_mem_cons.1 hes
    exact ih (act_state_of_harmless h he) hes

/-- Where engines return, as many calls are delivered as are handed over. -/
theorem after_handOvers {rs : List Reaction} (hopen : d.state = .open) (hrs : .stuck ∉ rs) :
    (d.after (rs.map .handOver)).delivered = d.delivered ++ d.pending.take rs.length := by
  induction rs generalizing d with
  | nil => exact (List.append_nil _).symm
  | cons r rs ih =>
    rw [List.mem_cons, not_or] at hrs
    have hr : (.handOver r : Event κ).Harmless := ⟨nofun, fun h => hrs.1 (Event.handOver.inj h).symm⟩
    rw [List.map_cons, after_cons, ih (act_state_of_harmless hopen hr) hrs.2]
    rw [act, step, hopen]
    cases hpending : d.pending with
    | nil => simp [hpending]
    | cons c pending => simp

/-- To settle a delivery is to hand over every call that waits. -/
theorem settle_eq_after (react : κ → Reaction) (d : Delivery κ) :
    d.settle react = d.after (d.pending.map fun c => .handOver (react c)) := by
  obtain ⟨pending, delivered, state⟩ := d
  have stays (d : Delivery κ) (h : d.state ≠ .open) (cs : List κ) :
      d.after (cs.map fun c => .handOver (react c)) = d := by
    induction cs with
    | nil => rfl
    | cons c cs ih => rw [List.map_cons, after_cons, act, step_of_not_open _ h, ih]
  cases state with
  | «open» =>
    show handOver react delivered pending = _
    induction pending generalizing delivered with
    | nil => rfl
    | cons c pending ih =>
      rw [handOver, List.map_cons, after_cons]
      have hact : act ⟨c :: pending, delivered, .open⟩ (.handOver (react c)) =
        ⟨pending, delivered ++ [c], if react c = .stuck then .blocked else .open⟩ := rfl
      rw [hact]
      split
      · exact (stays _ (by simp) pending).symm
      · exact ih (delivered ++ [c])
  | blocked => exact (stays ⟨pending, delivered, .blocked⟩ (by simp) pending).symm
  | aborted => exact (stays ⟨pending, delivered, .aborted⟩ (by simp) pending).symm

/-! ## Deliveries -/

/-- What holds of a delivery that had nothing to do when some things have happened. -/
structure InOrder (es : List (Event κ)) : Prop where
  /-- The calls delivered are the first of those notified, in their order. -/
  delivered : (idle.after es).delivered <+: notified es
  /-- The others wait, unless the delivery has been aborted. -/
  waiting : .abort ∉ es → notified es = (idle.after es).delivered ++ (idle.after es).pending
  /-- It is all the same whether engines succeed or fail. -/
  failures : idle.after (es.map .healed) = idle.after es
  /-- As long as engines return, all that has been notified is delivered after enough hand-overs. -/
  complete : (∀ e ∈ es, e.Harmless) → ∀ rs : List Reaction, .stuck ∉ rs →
    (idle.after es).pending.length ≤ rs.length →
    (idle.after (es ++ rs.map .handOver)).delivered = notified es
  /-- Nothing is delivered after the first call whose engine never returns. -/
  stuck : ∀ front back c pending, es = front ++ .handOver .stuck :: back →
    (idle.after front).state = .open → (idle.after front).pending = c :: pending →
    (idle.after es).delivered = (idle.after front).delivered ++ [c]
  /-- After an abort nothing more is delivered; notifying is still possible, and so is to abort again. -/
  aborted : ∀ front back, es = front ++ .abort :: back → idle.after es = (idle.after front).abort
  /-- To settle is to hand over the calls that wait, one after the other. -/
  settled : ∀ react : κ → Reaction, (idle.after es).settle react =
    idle.after (es ++ (idle.after es).pending.map fun c => .handOver (react c))

theorem inOrder (es : List (Event κ)) : InOrder es where
  delivered := (idle_after_serves es).delivered
  waiting hes := ((idle_after_serves es).waiting (after_state_ne_aborted nofun hes)).symm
  failures := after_healed idle es
  complete hes rs hrs hlength := by
    have hopen : (idle.after es).state = .open := after_state_of_harmless rfl hes
    rw [after_append, after_handOvers hopen hrs, List.take_of_length_le hlength]
    exact (idle_after_serves es).waiting (by rw [hopen]; nofun)
  stuck front back c pending hes hopen hpending := by
    rw [hes, after_append, after_stuck hopen hpending]
  aborted front back hes := by rw [hes, after_append, after_abort]
  settled react := by rw [settle_eq_after, after_append]

end ChangeRelay.Delivery
