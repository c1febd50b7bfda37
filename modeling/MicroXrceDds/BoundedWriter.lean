import MicroXrceDds.CdrLayout

/-!
# The bounded writer refines the unbounded one

What a sequence of writer calls leaves in a buffer is the front of what it writes into a
buffer that never ends, exactly if every block it copies starts inside the buffer or right
at its end, and no string is too long for the sum in its length field.
-/
namespace MicroXrceDds

open Prog LittleEndian

/-- Every call returns, `finish` gives the front of the unbounded output, as far as there
is room for it, and the cells behind that front are the old ones. -/
structure RefinesUnbounded [Target] {n : Nat} (buf : Buffer UInt8 n) (calls : List CdrCall) :
    Prop where
  returns : ((runCalls calls).run (CdrWriter.new buf)).1 = .ok ()
  finish : ((runCalls calls).run (CdrWriter.new buf)).2.finish =
    (bodyOf calls).take (min n (bodyOf calls).length)
  behind : ((runCalls calls).run (CdrWriter.new buf)).2.buf.cells.drop
      (min n (bodyOf calls).length) =
    buf.cells.drop (min n (bodyOf calls).length)

variable {n : Nat}

/-- The bounded writer refines the unbounded one exactly where every block starts within the
buffer and no length field overflows. -/
theorem refines_unbounded_iff [Target] (buf : Buffer UInt8 n) (calls : List CdrCall) :
    RefinesUnbounded buf calls ↔
      (∀ i ∈ blockStarts 0 calls, i ≤ n) ∧
        ∀ s, .string s ∈ calls → ¬ LengthOverflows s := by
  have hgoes := runCalls_goes calls buf []
  constructor
  · intro h
    by_contra hunsafe
    have hpanic := hgoes.panics _ (CdrWriter.wrote_new buf) hunsafe
    rw [h.returns] at hpanic
    cases hpanic
  · intro hinside
    have hwrote := hgoes.arrives _ (CdrWriter.wrote_new buf) hinside rfl
    constructor
    · exact hgoes.ends _ (CdrWriter.wrote_new buf) hinside
    · rw [CdrWriter.finish, hwrote.pos, Nat.min_comm]
      exact hwrote.filled.front
    · exact hwrote.filled.behind

/-- A number crosses the end of the buffer, and the byte behind it panics. -/
theorem byte_past_end_panics :
    letI := rp2040 true
    ¬ RefinesUnbounded (Buffer.replicate 3 (0 : UInt8)) [.u32Val 1, .u8Val 2] := by
  have hpanic :
      letI := rp2040 true
      ((runCalls [.u32Val 1, .u8Val 2]).run
        (CdrWriter.new (Buffer.replicate 3 (0 : UInt8)))).1 = .panic := by decide
  let target := rp2040 true
  intro h
  have hreturns := h.returns
  rw [hpanic] at hreturns
  cases hreturns

end MicroXrceDds
