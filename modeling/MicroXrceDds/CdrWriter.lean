import MicroXrceDds.Library.Prog
import MicroXrceDds.Library.Buffer
import MicroXrceDds.Protocol
import MicroXrceDds.Target

/-!
# The CDR serializer

`cdr.rs`: little-endian field writes into a borrowed buffer. The position keeps
counting past the end of the buffer, and the number of bytes reported is capped at
the buffer length. Positions are not taken modulo the width of `usize`: a slice is
shorter than half the address space, and a write that starts past the end panics.
-/
namespace MicroXrceDds

open Prog LittleEndian

structure CdrWriter (n : Nat) where
  buf : Buffer UInt8 n
  pos : Nat
  deriving DecidableEq, Repr

/-- A method of the writer. None of them returns an error, but some can panic. -/
abbrev WriteCdr (n : Nat) := Prog Error (CdrWriter n) Unit

namespace CdrWriter

variable {n : Nat}

def new (buf : Buffer UInt8 n) : CdrWriter n := ⟨buf, 0⟩

/-- One turn of the loop in `align`. -/
def padOne (w : CdrWriter n) : CdrWriter n where
  buf := if w.pos < n then w.buf.overwrite w.pos [0] else w.buf
  pos := w.pos + 1

def padBy : Nat → CdrWriter n → CdrWriter n
  | 0, w => w
  | k + 1, w => padBy k w.padOne

def align (k : Nat) : WriteCdr n := modify fun w =>
  let rem := w.pos % k
  if rem ≠ 0 then padBy (k - rem) w else w

def raw (bytes : Bytes) : WriteCdr n where
  run w :=
    let space := n - w.pos
    let k := min bytes.length space
    -- `buf[pos..pos + k]` panics when `pos` is past the end, even for `k = 0`.
    if w.pos + k ≤ n then
      (.ok (), ⟨w.buf.overwrite w.pos (bytes.take k), w.pos + bytes.length⟩)
    else (.panic, w)

def header : WriteCdr n := raw [0x00, 0x01, 0x00, 0x00]

def u8Val (v : UInt8) : WriteCdr n := raw [v]

def u32Val (v : UInt32) : WriteCdr n := do
  align 4
  raw (leBytes 4 v.toNat)

def i32Val (v : Int32) : WriteCdr n := do
  align 4
  raw (leBytes 4 v.toUInt32.toNat)

def boolVal (v : Bool) : WriteCdr n := raw [if v then 1 else 0]

/-- A float is its bit pattern. -/
def f32Val (bits : UInt32) : WriteCdr n := do
  align 4
  raw (leBytes 4 bits.toNat)

def f64Val (bits : UInt64) : WriteCdr n := do
  align 8
  raw (leBytes 8 bits.toNat)

def string [Target] (s : Bytes) : WriteCdr n := do
  align 4
  let lenWithNull ← addIn 32 (s.length % 2 ^ 32) 1
  raw (leBytes 4 lenWithNull)
  raw s
  raw [0x00]

/-- The loop of `f64_array` and `f64_slice`. -/
def rawEach : List UInt64 → WriteCdr n
  | [] => pure ()
  | v :: vs => do
    raw (leBytes 8 v.toNat)
    rawEach vs

def f64Array (arr : List UInt64) : WriteCdr n := do
  align 8
  rawEach arr

def f64Slice (arr : List UInt64) : WriteCdr n := do
  align 8
  rawEach arr

def bytesWritten (w : CdrWriter n) : Nat := min w.pos n

def finish (w : CdrWriter n) : Bytes := w.buf.cells.take (min w.pos n)

end CdrWriter

/-- One call of a public writer method. -/
inductive CdrCall where
  | header : CdrCall
  | u8Val : UInt8 → CdrCall
  | boolVal : Bool → CdrCall
  | i32Val : Int32 → CdrCall
  | u32Val : UInt32 → CdrCall
  | f32Val : UInt32 → CdrCall
  | f64Val : UInt64 → CdrCall
  | string : Bytes → CdrCall
  | f64Array : List UInt64 → CdrCall
  | f64Slice : List UInt64 → CdrCall
  deriving DecidableEq, Repr

def CdrCall.run [Target] {n : Nat} : CdrCall → WriteCdr n
  | .header => CdrWriter.header
  | .u8Val v => CdrWriter.u8Val v
  | .boolVal v => CdrWriter.boolVal v
  | .i32Val v => CdrWriter.i32Val v
  | .u32Val v => CdrWriter.u32Val v
  | .f32Val v => CdrWriter.f32Val v
  | .f64Val v => CdrWriter.f64Val v
  | .string s => CdrWriter.string s
  | .f64Array arr => CdrWriter.f64Array arr
  | .f64Slice arr => CdrWriter.f64Slice arr

/-- The calls of a `serialize` body, in order. -/
def runCalls [Target] {n : Nat} : List CdrCall → WriteCdr n
  | [] => pure ()
  | c :: calls => do
    c.run
    runCalls calls

/-- Padding bytes that bring a position to a multiple of `k`. -/
def padding (k pos : Nat) : Nat := if pos % k = 0 then 0 else k - pos % k

def padTo (k : Nat) (out : Bytes) : Bytes := out ++ List.replicate (padding k out.length) 0

def CdrCall.emit (out : Bytes) : CdrCall → Bytes
  | .header => out ++ [0x00, 0x01, 0x00, 0x00]
  | .u8Val v => out ++ [v]
  | .boolVal v => out ++ [if v then 1 else 0]
  | .i32Val v => padTo 4 out ++ leBytes 4 v.toUInt32.toNat
  | .u32Val v => padTo 4 out ++ leBytes 4 v.toNat
  | .f32Val v => padTo 4 out ++ leBytes 4 v.toNat
  | .f64Val v => padTo 8 out ++ leBytes 8 v.toNat
  | .string s => padTo 4 out ++ leBytes 4 (s.length + 1) ++ s ++ [0x00]
  | .f64Array arr => padTo 8 out ++ arr.flatMap fun v => leBytes 8 v.toNat
  | .f64Slice arr => padTo 8 out ++ arr.flatMap fun v => leBytes 8 v.toNat

def emitAll (out : Bytes) (calls : List CdrCall) : Bytes := calls.foldl CdrCall.emit out

/-- The complete serialization. -/
def bodyOf (calls : List CdrCall) : Bytes := emitAll [] calls

end MicroXrceDds
