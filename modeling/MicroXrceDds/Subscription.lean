import MicroXrceDds.Library.Bounded
import MicroXrceDds.Message

/-!
# Subscription slots

`subscription.rs`. A slot is a static with an atomic DataReader id and a bounded
channel as its inbox; the session knows it only by its address.
-/
namespace MicroXrceDds

open Prog

structure Subscription (M : Type) (N : Nat) where
  drId : UInt16
  inbox : Bounded M N

namespace Subscription

variable {M : Type} {N : Nat}

def new : Subscription M N := ⟨0, Bounded.empty⟩

def setDrId (id : UInt16) (sub : Subscription M N) : Subscription M N := { sub with drId := id }

def tryRecv (sub : Subscription M N) : Option (M × Subscription M N) :=
  sub.inbox.pop.map fun (v, rest) => (v, { sub with inbox := rest })

/-- `Channel::try_send`. -/
def trySend (v : M) : Prog Error (Subscription M N) Unit := do
  let sub ← get
  match sub.inbox.push v with
  | some inbox => modify fun sub => { sub with inbox := inbox }
  | none => throw .subscriptionOverflow

/-- What `M::deserialize` makes of a SerializedPayload. -/
def decode (M : Type) [Message M] (payload : Bytes) : Outcome Error M :=
  ((Message.deserialize : ReadCdr M).run (CdrReader.new payload)).1

def tryDeliver [Message M] (payload : Bytes) : Prog Error (Subscription M N) Unit := do
  let v ← Prog.ofOutcome (decode M payload)
  trySend v

end Subscription

/-- The subscription statics of a program: addresses in `σ`, and for each the
message type and the inbox depth it is declared with. -/
class Statics (σ : Type) where
  decEq : DecidableEq σ
  Msg : σ → Type
  depth : σ → Nat
  message : (s : σ) → Message (Msg s)

instance (σ : Type) [Statics σ] : DecidableEq σ := Statics.decEq

instance (σ : Type) [Statics σ] (s : σ) : Message (Statics.Msg s) := Statics.message s

/-- A program without subscriptions. -/
instance : Statics Empty where
  decEq := inferInstance
  Msg s := s.elim
  depth s := s.elim
  message s := s.elim

abbrev Slots (σ : Type) [Statics σ] :=
  (s : σ) → Subscription (Statics.Msg s) (Statics.depth s)

end MicroXrceDds
