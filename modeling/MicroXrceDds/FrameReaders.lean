import MicroXrceDds.Delivery

/-!
# The two frame readers

`read_framed` of `framing.rs` and `read_one_frame` of the session are two copies of one
function. The second one is modelled here over any transport and into a buffer of any
length, with the cursor of its `read_exact`.
-/
namespace MicroXrceDds

open Prog LittleEndian

/-- A transport and the buffer a frame is read into. -/
structure Receiver (S : Type) (n : Nat) where
  transport : S
  rxBuf : Buffer UInt8 n

variable {S : Type}

namespace Receiver

variable {n : Nat}

def setTransport (s : S) (r : Receiver S n) : Receiver S n := { r with transport := s }

/-- The bytes a read has put at the cursor. -/
def store (pos : Nat) (bs : Bytes) (r : Receiver S n) : Receiver S n :=
  { r with rxBuf := r.rxBuf.overwrite pos bs }

theorem zoom_cases {α : Type} (p : Prog Error S α) (r : Receiver S n) :
    (∃ a s, p.run r.transport = (.ok a, s) ∧
      (zoom Receiver.transport setTransport p).run r = (.ok a, r.setTransport s)) ∨
    (∃ o s, p.run r.transport = (o, s) ∧ o.isOk = false ∧
      (zoom Receiver.transport setTransport p).run r = (o, r.setTransport s)) := by
  rw [run_zoom]
  cases h : p.run r.transport with
  | mk o s =>
    cases o with
    | ok a => exact .inl ⟨a, s, rfl, rfl⟩
    | _ => exact .inr ⟨_, s, rfl, rfl, rfl⟩

section
variable [ReadWrite S]

/-- The loop of `read_exact`: `left` bytes of the slice, from `pos` on, are missing. -/
def readLoop : Nat → Nat → Nat → Prog Error (Receiver S n) Unit
  | _, _, 0 => pure ()
  | 0, _, _ + 1 => Prog.pending
  | fuel + 1, pos, left + 1 => do
    let got ← zoom Receiver.transport setTransport (Framing.read (left + 1))
    match got with
    | [] => throw .disconnected
    | b :: bs =>
      if bs.length ≤ left then do
        modify (store pos (b :: bs))
        readLoop fuel (pos + (bs.length + 1)) (left - bs.length)
      else Prog.panic

/-- `read_exact(transport, &mut rx_buf[..len])`. -/
def readExact (len : Nat) : Prog Error (Receiver S n) Unit := readLoop len 0 len

/-- `let mut len_buf = [0u8; 2]; read_exact(transport, &mut len_buf)`. -/
def readLenBuf : Prog Error (Receiver S n) Bytes :=
  zoom (fun r => (⟨r.transport, Buffer.replicate 2 0⟩ : Receiver S 2))
    (fun len r => r.setTransport len.transport)
    (do
      readExact 2
      let r ← get
      pure r.rxBuf.cells)

/-- `Session::read_one_frame(transport, rx_buf)`. -/
def readOneFrame : Prog Error (Receiver S n) Nat := do
  let lenBuf ← readLenBuf
  let len := Framing.frameLen lenBuf
  if n < len then throw .bufferTooSmall
  else
    readExact len
    pure len

/-- What its callers go on with: `&rx_buf[..len]`. -/
def readPayload : Prog Error (Receiver S n) Bytes := do
  let len ← readOneFrame
  let r ← get
  slice r.rxBuf.cells 0 len

/-- The loop reads what the loop of `framing.rs` reads, and puts it behind the cursor. -/
theorem readLoop_cases (fuel pos left : Nat) (r : Receiver S n) (hfit : pos + left ≤ n) :
    (∃ bs s, (Framing.readLoop fuel left).run r.transport = (.ok bs, s) ∧ bs.length = left ∧
      (readLoop fuel pos left).run r = (.ok (), (r.setTransport s).store pos bs)) ∨
    (∃ o s r', (Framing.readLoop fuel left).run r.transport = (o, s) ∧ o.isOk = false ∧
      r'.transport = s ∧ (readLoop fuel pos left).run r = (o.abort, r')) := by
  induction fuel generalizing pos left r with
  | zero =>
    cases left with
    | zero =>
      left
      refine ⟨[], r.transport, rfl, rfl, ?_⟩
      rw [store, Buffer.overwrite_nil]
      rfl
    | succ left => exact .inr ⟨.pending, r.transport, r, rfl, rfl, rfl, rfl⟩
  | succ fuel ih =>
    cases left with
    | zero =>
      left
      refine ⟨[], r.transport, rfl, rfl, ?_⟩
      rw [store, Buffer.overwrite_nil]
      rfl
    | succ left =>
      rw [readLoop, Framing.readLoop]
      rcases zoom_cases (Framing.read (left + 1)) r with
        ⟨got, s₁, hread, hzoom⟩ | ⟨o, s₁, hread, ho, hzoom⟩
      · rw [bind_ok hread, bind_ok hzoom]
        cases got with
        | nil => exact .inr ⟨.err .disconnected, s₁, r.setTransport s₁, rfl, rfl, rfl, rfl⟩
        | cons b bs =>
          by_cases hle : bs.length ≤ left
          · simp only [if_pos hle, run_modify_bind]
            rcases ih (pos + (bs.length + 1)) (left - bs.length)
              ((r.setTransport s₁).store pos (b :: bs)) (by omega) with
              ⟨rest, s₂, hrest, hlen, hloop⟩ | ⟨o, s₂, r₂, hrest, ho, htransport, hloop⟩
            · left
              have hroom : pos + (b :: bs).length + rest.length ≤ n := by
                rw [List.length_cons]
                omega
              refine ⟨b :: bs ++ rest, s₂, bind_ok hrest _, ?_, ?_⟩
              · rw [List.length_append, List.length_cons]
                omega
              · rw [hloop]
                have hstore := Buffer.overwrite_append (b := r.rxBuf) hroom
                exact congrArg (fun buf => (Outcome.ok (), (⟨s₂, buf⟩ : Receiver S n))) hstore
            · exact .inr ⟨o.abort, s₂, r₂, bind_abort hrest ho _, not_isOk_abort ho, htransport,
                by rw [hloop]; cases o <;> rfl⟩
          · simp only [if_neg hle]
            exact .inr ⟨.panic, s₁, r.setTransport s₁, rfl, rfl, rfl, rfl⟩
      · rw [bind_abort hread ho, bind_abort hzoom ho]
        exact .inr ⟨o.abort, s₁, r.setTransport s₁, rfl, not_isOk_abort ho, rfl, by cases o <;> rfl⟩

theorem readExact_cases (len : Nat) (r : Receiver S n) (hfit : len ≤ n) :
    (∃ bs s, (Framing.readExact len).run r.transport = (.ok bs, s) ∧ bs.length = len ∧
      (readExact len).run r = (.ok (), (r.setTransport s).store 0 bs)) ∨
    (∃ o s r', (Framing.readExact len).run r.transport = (o, s) ∧ o.isOk = false ∧
      r'.transport = s ∧ (readExact len).run r = (o.abort, r')) :=
  readLoop_cases len 0 len r (by omega)

end

end Receiver

section
variable [ReadWrite S]

/-- One of the two readers, with the buffer its caller passes. -/
inductive FrameReader where
  | readFramed (bufLen : Nat)
  | readOneFrame {n : Nat} (rxBuf : Buffer UInt8 n)

namespace FrameReader

def bufLen : FrameReader → Nat
  | readFramed bufLen => bufLen
  | readOneFrame (n := n) _ => n

def read : FrameReader → Prog Error S Bytes
  | readFramed bufLen => Framing.readFramed bufLen
  | readOneFrame rxBuf =>
    zoom (fun s => ⟨s, rxBuf⟩) (fun r _ => r.transport) Receiver.readPayload

end FrameReader

/-- A transport that hands what is written to it back to its reader, in pieces of any
length but zero. `I bs s` says that the bytes `bs` have been written and not yet read. -/
structure Pipe (I : Bytes → S → Prop) : Prop extends Sink I where
  read : ∀ len bs s, 0 < len → bs ≠ [] → I bs s → ∃ n s',
    (ReadWrite.read len).run s = (.ok (bs.take n), s') ∧ 0 < n ∧ n ≤ len ∧ n ≤ bs.length ∧
      I (bs.drop n) s'

namespace Pipe

variable {I : Bytes → S → Prop}

theorem giving (hpipe : Pipe I) : Giving I := by
  intro len bs s hpos hle h
  have hne : bs ≠ [] := by
    rintro rfl
    rw [List.length_nil] at hle
    omega
  obtain ⟨n, s', hrun, hn, hnle, -, hnext⟩ := hpipe.read len bs s hpos hne h
  exact ⟨n, s', mapIo_ok hrun, hn, hnle, hnext⟩

end Pipe

end

/-- A connection whose far end sends everything back. A chunk `k` lets the next operation
move `k + 1` bytes. -/
structure Loopback where
  inFlight : Bytes
  chunks : List Nat

namespace Loopback

def chunk (len : Nat) (l : Loopback) : Nat := min len (l.chunks.headD len + 1)

def gave (bs : Bytes) (l : Loopback) : Loopback := ⟨l.inFlight ++ bs, l.chunks.tail⟩

def took (k : Nat) (l : Loopback) : Loopback := ⟨l.inFlight.drop k, l.chunks.tail⟩

instance : ReadWrite Loopback where
  read len := ⟨fun l => (.ok (l.inFlight.take (l.chunk (min len l.inFlight.length))),
    l.took (l.chunk (min len l.inFlight.length)))⟩
  write buf := ⟨fun l => (.ok (l.chunk buf.length), l.gave (buf.take (l.chunk buf.length)))⟩
  flush := pure ()

end Loopback

end MicroXrceDds
