import MicroXrceDds.Transport

/-!
# A connection that can be inspected

The two directions of a stream connection, with the number of bytes that each
operation moves at most. Reading blocks when nothing has arrived.
-/
namespace MicroXrceDds

open Prog

/-- A chunk `k` lets the next operation move `k + 1` bytes; without one it moves all
it is asked to. -/
structure Wire where
  incoming : Bytes
  outgoing : Bytes
  chunks : List Nat
  deriving DecidableEq, Repr

namespace Wire

def chunk (len : Nat) (w : Wire) : Nat :=
  match w.chunks with
  | [] => len
  | k :: _ => min len (k + 1)

/-- The connection after `k` bytes have been read. -/
def took (k : Nat) (w : Wire) : Wire :=
  { w with incoming := w.incoming.drop k, chunks := w.chunks.tail }

/-- The connection after `bs` has been written. -/
def gave (bs : Bytes) (w : Wire) : Wire :=
  { w with outgoing := w.outgoing ++ bs, chunks := w.chunks.tail }

end Wire

instance : ReadWrite Wire where
  read len := ⟨fun w =>
    if w.incoming = [] then (.pending, w)
    else (.ok (w.incoming.take (w.chunk len)), w.took (w.chunk len))⟩
  write buf := ⟨fun w =>
    (.ok (buf.take (w.chunk buf.length)).length, w.gave (buf.take (w.chunk buf.length)))⟩
  flush := pure ()

end MicroXrceDds
