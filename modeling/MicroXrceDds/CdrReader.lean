import MicroXrceDds.Library.Prog
import MicroXrceDds.Protocol
import MicroXrceDds.Target
import Mathlib.Data.Vector.Basic

/-!
# The CDR deserializer

`cdr_reader.rs`: typed reads from a borrowed byte slice. Positions are `usize`
values of the target, so an addition on them can overflow.
-/
namespace MicroXrceDds

open Prog LittleEndian

structure CdrReader where
  buf : Bytes
  pos : Nat
  deriving DecidableEq, Repr

abbrev ReadCdr (α : Type) := Prog Error CdrReader α

namespace CdrReader

/-- Over a SerializedPayload: the encapsulation header is skipped. -/
def new (buf : Bytes) : CdrReader := ⟨if 4 ≤ buf.length then buf.drop 4 else [], 0⟩

def fromBody (body : Bytes) : CdrReader := ⟨body, 0⟩

def remaining (r : CdrReader) : Nat := r.buf.length - r.pos

def setPos (pos : Nat) (r : CdrReader) : CdrReader := { r with pos := pos }

variable [Target]

def align (k : Nat) : ReadCdr Unit := do
  let r ← get
  let rem := r.pos % k
  if rem ≠ 0 then
    let pos ← usizeAdd r.pos (k - rem)
    modify (setPos pos)
  else pure ()

def take (k : Nat) : ReadCdr Bytes := do
  let r ← get
  let stop ← usizeAdd r.pos k
  if r.buf.length < stop then throw .deserialization
  else
    let s ← slice r.buf r.pos stop
    modify (setPos stop)
    pure s

def u8Val : ReadCdr UInt8 := do
  let r ← get
  match r.buf[r.pos]? with
  | none => throw .deserialization
  | some b =>
    let pos ← usizeAdd r.pos 1
    modify (setPos pos)
    pure b

def boolVal : ReadCdr Bool := do
  let b ← u8Val
  pure (b != 0)

def u32Val : ReadCdr UInt32 := do
  align 4
  let bytes ← take 4
  pure (UInt32.ofNat (leNat bytes))

def i32Val : ReadCdr Int32 := do
  align 4
  let bytes ← take 4
  pure (UInt32.ofNat (leNat bytes)).toInt32

def f32Val : ReadCdr UInt32 := u32Val

def f64Val : ReadCdr UInt64 := do
  align 8
  let bytes ← take 8
  pure (UInt64.ofNat (leNat bytes))

/-- The loop of `f64_array` over the slots of its result. -/
def f64Slots : (n : Nat) → ReadCdr (List.Vector UInt64 n)
  | 0 => pure List.Vector.nil
  | n + 1 => do
    let v ← f64Val
    let vs ← f64Slots n
    pure (v ::ᵥ vs)

def f64Array (n : Nat) : ReadCdr (List.Vector UInt64 n) := do
  align 8
  f64Slots n

def stringBytes : ReadCdr Bytes := do
  let lenWithNull ← u32Val
  if lenWithNull.toNat = 0 then pure []
  else
    let bytes ← take (lenWithNull.toNat - 1)
    let _ ← take 1
    pure bytes

end CdrReader

end MicroXrceDds
