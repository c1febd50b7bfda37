import MicroXrceDds.Library.Prog
import MicroXrceDds.Protocol

/-!
# Transports and framing

A transport is anything with the three asynchronous operations of
`embedded_io_async`. The framing functions of `framing.rs` run over it; the loops
are bounded by the length of the slice they work through, because every turn that
goes on takes at least one byte.
-/
namespace MicroXrceDds

open Prog LittleEndian

/-- The operations report a bare failure, which the crate maps to `Error::Io`. No
bytes read means end of stream, and a pending operation is one whose future is
dropped while it waits. A `write` gives the number of bytes accepted. -/
class ReadWrite (S : Type) where
  read : Nat → Prog Unit S Bytes
  write : Bytes → Prog Unit S Nat
  flush : Prog Unit S Unit

/-- `.map_err(|_| Error::Io)`. -/
def mapIo {S α : Type} (p : Prog Unit S α) : Prog Error S α where
  run s := match p.run s with
    | (.ok a, s') => (.ok a, s')
    | (.err _, s') => (.err .io, s')
    | (.panic, s') => (.panic, s')
    | (.pending, s') => (.pending, s')

theorem mapIo_ok {S α : Type} {p : Prog Unit S α} {s s' : S} {a : α} (h : p.run s = (.ok a, s')) :
    (mapIo p).run s = (.ok a, s') := by
  simp only [mapIo, h]

theorem state_mapIo {S α : Type} (p : Prog Unit S α) (s : S) : ((mapIo p).run s).2 = (p.run s).2 := by
  simp only [mapIo]
  cases p.run s with
  | mk o s' => cases o <;> rfl

namespace Framing

variable {S : Type} [ReadWrite S]

def read (len : Nat) : Prog Error S Bytes := mapIo (ReadWrite.read len)
def write (buf : Bytes) : Prog Error S Nat := mapIo (ReadWrite.write buf)
def flush : Prog Error S Unit := mapIo ReadWrite.flush

def writeLoop : Nat → Bytes → Prog Error S Unit
  | _, [] => pure ()
  | 0, _ :: _ => Prog.pending
  | fuel + 1, b :: buf => do
    let accepted ← write (b :: buf)
    match accepted with
    | 0 => throw .disconnected
    | k + 1 => if k ≤ buf.length then writeLoop fuel (buf.drop k) else Prog.panic

def writeAll (buf : Bytes) : Prog Error S Unit := writeLoop buf.length buf

def writeFramed (payload : Bytes) : Prog Error S Unit := do
  writeAll (u16LeBytes (UInt16.ofNat payload.length))
  writeAll payload
  flush

/-- The loop of `read_exact`: `left` bytes are still missing. What a failing read
leaves in the caller's buffer is dropped, as nothing looks at it. -/
def readLoop : Nat → Nat → Prog Error S Bytes
  | _, 0 => pure []
  | 0, _ + 1 => Prog.pending
  | fuel + 1, left + 1 => do
    let got ← read (left + 1)
    match got with
    | [] => throw .disconnected
    | b :: bs =>
      if bs.length ≤ left then
        let rest ← readLoop fuel (left - bs.length)
        pure (b :: bs ++ rest)
      else Prog.panic

def readExact (len : Nat) : Prog Error S Bytes := readLoop len len

theorem readLoop_length (fuel left : Nat) {s s' : S} {bs : Bytes}
    (h : (readLoop fuel left).run s = (.ok bs, s')) : bs.length = left := by
  induction fuel generalizing left s s' bs with
  | zero =>
    cases left with
    | zero =>
      cases h
      rfl
    | succ left => cases h
  | succ fuel ih =>
    cases left with
    | zero =>
      cases h
      rfl
    | succ left =>
      obtain ⟨got, s₁, -, h⟩ := bind_eq_ok h
      cases got with
      | nil => cases h
      | cons b bs' =>
        simp only at h
        split at h
        · next hle =>
          obtain ⟨rest, s₂, hrest, h⟩ := bind_eq_ok h
          cases h
          have hlen := ih _ hrest
          simp only [List.cons_append, List.length_cons, List.length_append]
          omega
        · cases h

/-- `u16::from_le_bytes(len_buf) as usize`. -/
def frameLen (lenBuf : Bytes) : Nat := leNat lenBuf

def readFramed (bufLen : Nat) : Prog Error S Bytes := do
  let lenBuf ← readExact 2
  let len := frameLen lenBuf
  if bufLen < len then throw .bufferTooSmall
  else readExact len

theorem readFramed_length {bufLen : Nat} {s s' : S} {bs : Bytes}
    (h : (readFramed bufLen).run s = (.ok bs, s')) : bs.length ≤ bufLen := by
  obtain ⟨lenBuf, s₁, -, h⟩ := bind_eq_ok h
  simp only at h
  split at h
  · cases h
  · next hle =>
    rw [readLoop_length _ _ h]
    exact Nat.le_of_not_lt hle

end Framing

end MicroXrceDds
