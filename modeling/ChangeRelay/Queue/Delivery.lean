/-
Delivery: calls that have been made are handed to the engines one at a time, in their order. An
engine that fails is done with; one that never returns keeps all later calls waiting. Once delivery
has been aborted nothing more is delivered, though calls are still accepted.
-/
import ChangeRelay.Relay.Router

namespace ChangeRelay

/-- What an engine does with a call. -/
inductive Reaction where
  | done
  | failed
  /-- It never returns. -/
  | stuck
  deriving DecidableEq, Repr

/-- How a delivery stands. -/
inductive DeliveryState where
  | open
  /-- An engine has not returned. -/
  | blocked
  | aborted
  deriving DecidableEq, Repr

/-- A delivery of calls of type `κ`. -/
structure Delivery (κ : Type) where
  /-- The calls that have not been handed over. -/
  pending : List κ
  /-- The calls that engines have been given. -/
  delivered : List κ
  state : DeliveryState
  deriving DecidableEq, Repr

namespace Delivery

variable {κ : Type}

/-- A delivery that has nothing to do. -/
def idle : Delivery κ := ⟨[], [], .open⟩

instance : Inhabited (Delivery κ) := ⟨idle⟩

/-- Accepts a call. -/
def accept (d : Delivery κ) (c : κ) : Delivery κ :=
  match d.state with
  | .aborted => d
  | _ => { d with pending := d.pending ++ [c] }

/-- Hands the next call over, if there is one and engines have returned. -/
def step (react : κ → Reaction) (d : Delivery κ) : Delivery κ :=
  match d.state, d.pending with
  | .open, c :: pending =>
    ⟨pending, d.delivered ++ [c], if react c = .stuck then .blocked else .open⟩
  | _, _ => d

/-- Delivers nothing more. This stands for the moment at which the cancellation takes effect: until
then calls may still be handed over. -/
def abort (d : Delivery κ) : Delivery κ := ⟨[], d.delivered, .aborted⟩

/-- Hands over calls until an engine does not return. -/
def handOver (react : κ → Reaction) : List κ → List κ → Delivery κ
  | delivered, [] => ⟨[], delivered, .open⟩
  | delivered, c :: pending =>
    if react c = .stuck then ⟨pending, delivered ++ [c], .blocked⟩
    else handOver react (delivered ++ [c]) pending

/-- Hands over all calls that can be handed over. -/
def settle (react : κ → Reaction) (d : Delivery κ) : Delivery κ :=
  match d.state with
  | .open => handOver react d.delivered d.pending
  | _ => d

end Delivery
end ChangeRelay
