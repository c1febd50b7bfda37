import MicroXrceDds.CdrReading

/-!
# Reading back what was written

`CdrReader` undoes `CdrWriter`: at the position a field was written, the read of the
same kind gives the field back and stops where the next field was written.
-/
namespace MicroXrceDds

open Prog LittleEndian CdrReader

/-- A typed field, as it is written. -/
inductive Field where
  | u8 : UInt8 → Field
  | bool : Bool → Field
  | i32 : Int32 → Field
  | u32 : UInt32 → Field
  | f32 : UInt32 → Field
  | f64 : UInt64 → Field
  | string : Bytes → Field
  | f64Array : List UInt64 → Field
  | f64Slice : List UInt64 → Field
  deriving DecidableEq, Repr

namespace Field

def write : Field → CdrCall
  | .u8 v => .u8Val v
  | .bool v => .boolVal v
  | .i32 v => .i32Val v
  | .u32 v => .u32Val v
  | .f32 v => .f32Val v
  | .f64 v => .f64Val v
  | .string s => .string s
  | .f64Array vs => .f64Array vs
  | .f64Slice vs => .f64Slice vs

/-- A slice is read back as an array of its length. -/
def read : Field → ReadCall
  | .u8 _ => .u8Val
  | .bool _ => .boolVal
  | .i32 _ => .i32Val
  | .u32 _ => .u32Val
  | .f32 _ => .f32Val
  | .f64 _ => .f64Val
  | .string _ => .stringBytes
  | .f64Array vs => .f64Array vs.length
  | .f64Slice vs => .f64Array vs.length

def value : Field → CdrValue
  | .u8 v => .u8 v
  | .bool v => .bool v
  | .i32 v => .i32 v
  | .u32 v => .u32 v
  | .f32 v => .f32 v
  | .f64 v => .f64 v
  | .string s => .string s
  | .f64Array vs => .f64s vs
  | .f64Slice vs => .f64s vs

end Field

/-- The reads in order, with `?` after each. -/
def readAll [Target] : List ReadCall → ReadCdr (List CdrValue)
  | [] => pure []
  | c :: calls => do
    let v ← c.run
    let vs ← readAll calls
    pure (v :: vs)

/-- The bytes between two prefixes of a buffer. -/
theorem span_append (xs ys zs : Bytes) : span (xs ++ ys ++ zs) xs.length ys.length = ys := by
  rw [span, List.append_assoc, List.drop_left, List.take_left]

theorem alignedPos_length (k : Nat) (out : Bytes) :
    alignedPos k out.length = (padTo k out).length := by
  rw [alignedPos, length_padTo]

/-- An aligned number is read where it was written. -/
theorem readWord_written {k v : Nat} (hv : v < 256 ^ k) (out rest : Bytes) :
    readWord k (padTo k out ++ leBytes k v ++ rest) out.length =
      ⟨some v, (padTo k out ++ leBytes k v).length⟩ := by
  have hlen : (leBytes k v).length = k := length_leBytes k v
  have hspan := span_append (padTo k out) (leBytes k v) rest
  rw [hlen] at hspan
  rw [readWord_of_le, alignedPos_length, hspan, leNat_leBytes_of_lt hv, List.length_append, hlen]
  rw [alignedPos_length, List.length_append, List.length_append, hlen]
  omega

theorem padTo_of_aligned {k : Nat} {out : Bytes} (h : out.length % k = 0) : padTo k out = out := by
  rw [padTo, padding_eq_zero h, List.replicate_zero, List.append_nil]

/-- Aligned doubles, one after the other. -/
theorem readDoubles_written (vs : List UInt64) (front rest : Bytes)
    (h : front.length % 8 = 0) :
    (readDoubles (front ++ (vs.flatMap fun v => leBytes 8 v.toNat) ++ rest) vs.length
      front.length).map List.Vector.toList =
      ⟨some vs, (front ++ vs.flatMap fun v => leBytes 8 v.toNat).length⟩ := by
  induction vs generalizing front with
  | nil =>
    rw [List.flatMap_nil, List.append_nil]
    rfl
  | cons v vs ih =>
    have hword := readWord_written (show v.toNat < 256 ^ 8 from v.toNat_lt) front
      ((vs.flatMap fun v => leBytes 8 v.toNat) ++ rest)
    have hrest := ih (front ++ leBytes 8 v.toNat)
      (by rw [List.length_append, length_leBytes]; omega)
    rw [padTo_of_aligned h, ← List.append_assoc] at hword
    simp only [List.flatMap_cons, ← List.append_assoc, List.length_cons, readDoubles, hword]
    simp only [Reading.map, Reading.andThen, Option.map_some, UInt64.ofNat_toNat,
      Reading.mk.injEq] at hrest ⊢
    refine ⟨?_, hrest.2⟩
    have hvalue := congrArg (Option.map (v :: ·)) hrest.1
    rw [Option.map_map] at hvalue
    rw [Option.map_map]
    exact hvalue

/-- A string with its terminator. -/
theorem readString_written {s : Bytes} (hs : s.length < 2 ^ 32 - 1) (out rest : Bytes) :
    readString (padTo 4 out ++ leBytes 4 (s.length + 1) ++ s ++ [0x00] ++ rest) out.length =
      ⟨some s, (padTo 4 out ++ leBytes 4 (s.length + 1) ++ s ++ [0x00]).length⟩ := by
  have hword := readWord_written (show s.length + 1 < 256 ^ 4 by omega) out (s ++ [0x00] ++ rest)
  have hbody := span_append (padTo 4 out ++ leBytes 4 (s.length + 1)) s ([0x00] ++ rest)
  have hlen : (UInt32.ofNat (s.length + 1)).toNat = s.length + 1 := by
    rw [UInt32.toNat_ofNat']
    omega
  simp only [← List.append_assoc] at hword hbody
  rw [readString, hword]
  simp only [Reading.map, Reading.andThen, Option.map_some, hlen, Nat.succ_ne_zero, ↓reduceIte,
    Nat.add_sub_cancel]
  have hroom : (padTo 4 out ++ leBytes 4 (s.length + 1)).length + s.length + 1 ≤
      (padTo 4 out ++ leBytes 4 (s.length + 1) ++ s ++ [0x00] ++ rest).length := by
    simp only [List.length_append, List.length_singleton]
    omega
  have htext : readSpan s.length (padTo 4 out ++ leBytes 4 (s.length + 1) ++ s ++ [0x00] ++ rest)
      (padTo 4 out ++ leBytes 4 (s.length + 1)).length =
      ⟨some s, (padTo 4 out ++ leBytes 4 (s.length + 1)).length + s.length⟩ := by
    rw [readSpan, if_pos (by omega), hbody]
  rw [htext]
  simp only [readSpan, if_pos hroom, Option.map_some, Reading.mk.injEq, true_and]
  simp only [List.length_append, List.length_singleton]

/-- Each field is read back where it was written, whatever follows. -/
theorem reading_written (f : Field) (hs : ∀ s, f = .string s → s.length < 2 ^ 32 - 1)
    (out rest : Bytes) :
    reading (f.write.emit out ++ rest) out.length f.read =
      ⟨some f.value, (f.write.emit out).length⟩ := by
  have h4 (n : UInt32) := readWord_written (show n.toNat < 256 ^ 4 from n.toNat_lt) out rest
  have h8 (n : UInt64) := readWord_written (show n.toNat < 256 ^ 8 from n.toNat_lt) out rest
  have hbyte (b : UInt8) : readByte (out ++ [b] ++ rest) out.length =
      ⟨some b, (out ++ [b]).length⟩ := by
    have hget : (out ++ [b] ++ rest)[out.length]? = some b := by simp
    rw [readByte, hget, List.length_append, List.length_singleton]
  have hdoubles (vs : List UInt64) :
      reading (padTo 8 out ++ (vs.flatMap fun v => leBytes 8 v.toNat) ++ rest)
        out.length (.f64Array vs.length) =
      ⟨some (.f64s vs), (padTo 8 out ++ vs.flatMap fun v => leBytes 8 v.toNat).length⟩ := by
    have haligned : (padTo 8 out).length % 8 = 0 := by
      rw [length_padTo]
      exact padding_dvd (by decide) _
    have hmap := congrArg (Reading.map CdrValue.f64s) (readDoubles_written vs _ rest haligned)
    rw [Reading.map_map] at hmap
    rw [reading, alignedPos_length]
    exact hmap
  cases f with
  | u8 v =>
    simp only [Field.write, CdrCall.emit, Field.read, Field.value, reading, hbyte, Reading.map,
      Option.map_some]
  | bool v =>
    simp only [Field.write, CdrCall.emit, Field.read, Field.value, reading, hbyte, Reading.map,
      Option.map_some]
    cases v <;> rfl
  | i32 v =>
    simp only [Field.write, CdrCall.emit, Field.read, Field.value, reading, h4, Reading.map,
      Option.map_some, UInt32.ofNat_toNat, Int32.toInt32_toUInt32]
  | u32 v =>
    simp only [Field.write, CdrCall.emit, Field.read, Field.value, reading, h4, Reading.map,
      Option.map_some, UInt32.ofNat_toNat]
  | f32 v =>
    simp only [Field.write, CdrCall.emit, Field.read, Field.value, reading, h4, Reading.map,
      Option.map_some, UInt32.ofNat_toNat]
  | f64 v =>
    simp only [Field.write, CdrCall.emit, Field.read, Field.value, reading, h8, Reading.map,
      Option.map_some, UInt64.ofNat_toNat]
  | string s =>
    simp only [Field.write, CdrCall.emit, Field.read, Field.value, reading,
      readString_written (hs s rfl), Reading.map, Option.map_some]
  | f64Array vs => exact hdoubles vs
  | f64Slice vs => exact hdoubles vs

/-- The length field of a string that was written whole does not lead out of the buffer. -/
theorem not_poisoned_written [t : Target] {s : Bytes} (hs : s.length < 2 ^ 32 - 1)
    (out rest : Bytes)
    (hsize : (padTo 4 out ++ leBytes 4 (s.length + 1) ++ s ++ [0x00] ++ rest).length ≤
      2 ^ t.usizeBits) :
    ¬ Poisoned t.usizeBits (padTo 4 out ++ leBytes 4 (s.length + 1) ++ s ++ [0x00] ++ rest)
      out.length := by
  rintro ⟨-, hlong⟩
  have hspan := span_append (padTo 4 out) (leBytes 4 (s.length + 1)) (s ++ [0x00] ++ rest)
  simp only [← List.append_assoc, length_leBytes] at hspan
  rw [alignedPos_length, hspan, leNat_leBytes_of_lt (by omega)] at hlong
  simp only [List.length_append, length_leBytes, List.length_singleton] at hsize
  omega

theorem prefix_emit (out : Bytes) (c : CdrCall) : out <+: c.emit out := by
  cases c <;> simp only [CdrCall.emit, padTo, List.append_assoc, List.prefix_append]

theorem prefix_emitAll (calls : List CdrCall) (out : Bytes) : out <+: emitAll out calls := by
  induction calls generalizing out with
  | nil => exact List.prefix_refl out
  | cons c calls ih => exact (prefix_emit out c).trans (ih (c.emit out))

/-- The joint invariant: both sides stand behind `out`. -/
theorem readAll_written [t : Target] (fields : List Field)
    (hs : ∀ s, .string s ∈ fields → s.length < 2 ^ 32 - 1) (out : Bytes)
    (hsize : (emitAll out (fields.map Field.write)).length + 16 ≤ 2 ^ t.usizeBits) :
    (readAll (fields.map Field.read)).run ⟨emitAll out (fields.map Field.write), out.length⟩ =
      (.ok (fields.map Field.value), ⟨emitAll out (fields.map Field.write),
        (emitAll out (fields.map Field.write)).length⟩) := by
  induction fields generalizing out with
  | nil => rfl
  | cons f fields ih =>
    simp only [List.map_cons, emitAll_cons] at hsize ⊢
    obtain ⟨rest, hrest⟩ := prefix_emitAll (fields.map Field.write) (f.write.emit out)
    have hlater := ih (fun s hmem => hs s (List.mem_cons_of_mem f hmem)) (f.write.emit out) hsize
    have hhere : ∀ s, f = .string s → s.length < 2 ^ 32 - 1 := by
      rintro s rfl
      exact hs s (List.mem_cons_self ..)
    have hread := reading_written f hhere out rest
    rw [hrest] at hread
    generalize emitAll (f.write.emit out) (fields.map Field.write) = body at *
    have hle : out.length ≤ body.length := by
      have hfront := length_le_emit out f.write
      rw [← hrest, List.length_append]
      omega
    have hclean : f.read = .stringBytes → ¬ Poisoned t.usizeBits body out.length := by
      intro hstring
      cases f with
      | string s =>
        rw [← hrest] at hsize ⊢
        exact not_poisoned_written (hhere s rfl) out rest (by
          simp only [Field.write, CdrCall.emit] at hsize
          omega)
      | _ => cases hstring
    have hdoes := does_call (r := ⟨body, out.length⟩) f.read (sane_of_le hle) hsize hclean
    rw [hread] at hdoes
    exact (bind_ok hdoes _).trans (bind_ok hlater _)

/-- What the writer reports as written. -/
def written {n : Nat} (w : CdrWriter n) : Bytes := w.buf.cells.take w.bytesWritten

theorem written_of_wrote {n : Nat} {orig : Buffer UInt8 n} {out : Bytes} {w : CdrWriter n}
    (h : CdrWriter.Wrote orig out w) (hfit : out.length ≤ n) : written w = out := by
  have htake := h.filled.take
  rw [List.take_of_length_le hfit] at htake
  rw [written, CdrWriter.bytesWritten, h.pos, Nat.min_eq_left hfit, htake]

/-- The reader gives every field back and is at the end, without an encapsulation header
and behind any one. A slice has at most `isize::MAX` bytes. -/
theorem read_back_of_written [t : Target] (fields : List Field) {n : Nat} (buf : Buffer UInt8 n)
    (hs : ∀ s, .string s ∈ fields → s.length < 2 ^ 32 - 1)
    (hfit : (bodyOf (fields.map Field.write)).length ≤ n) (hslice : n < 2 ^ (t.usizeBits - 1)) :
    ∃ w, (runCalls (fields.map Field.write)).run (CdrWriter.new buf) = (.ok (), w) ∧
      ∀ r, (r = CdrReader.fromBody (written w) ∨
          ∃ encap : Bytes, encap.length = 4 ∧ r = CdrReader.new (encap ++ written w)) →
        ∃ r', (readAll (fields.map Field.read)).run r = (.ok (fields.map Field.value), r') ∧
          r'.remaining = 0 := by
  have hroom := room_of_slice hslice
  have hcalls : ∀ s, .string s ∈ fields.map Field.write → s.length < 2 ^ 32 - 1 ∨ n < 2 ^ 32 - 1 := by
    intro s hmem
    obtain ⟨f, hf, hwrite⟩ := List.mem_map.mp hmem
    cases f with
    | string s' =>
      cases hwrite
      exact .inl (hs s hf)
    | _ => cases hwrite
  rcases runCalls_emits hcalls buf [] (CdrWriter.new buf) (CdrWriter.wrote_new buf) with
    ⟨hok, hwrote⟩ | ⟨-, hlong⟩
  · refine ⟨_, Prod.ext hok rfl, ?_⟩
    have hwritten : written ((runCalls (fields.map Field.write)).run (CdrWriter.new buf)).2 =
        bodyOf (fields.map Field.write) := written_of_wrote hwrote hfit
    have hread := readAll_written fields hs [] (by change (bodyOf _).length + 16 ≤ _; omega)
    intro r hr
    have hstart : r = ⟨bodyOf (fields.map Field.write), 0⟩ := by
      rw [hwritten] at hr
      rcases hr with rfl | ⟨encap, hencap, rfl⟩
      · rfl
      · rw [CdrReader.new, if_pos (by rw [List.length_append]; omega), ← hencap, List.drop_left]
    rw [hstart]
    exact ⟨_, hread, Nat.sub_self _⟩
  · exact absurd hfit (Nat.not_le.mpr hlong)

/-- Padding at every kind of boundary: a byte, a double, a string, an array. -/
theorem read_back_of_written_mixed :
    letI := rp2040 true
    let fields := [Field.u8 7, .f64 3, .string (ascii "ab"), .f64Slice [1, 2], .bool true, .i32 (-1)]
    ∃ w, (runCalls (fields.map Field.write)).run (CdrWriter.new (Buffer.replicate 64 0xAA)) =
        (.ok (), w) ∧
      ∀ r, (r = CdrReader.fromBody (written w) ∨
          ∃ encap : Bytes, encap.length = 4 ∧ r = CdrReader.new (encap ++ written w)) →
        ∃ r', (readAll (fields.map Field.read)).run r = (.ok (fields.map Field.value), r') ∧
          r'.remaining = 0 := by
  let target := rp2040 true
  intro fields
  refine read_back_of_written fields (Buffer.replicate 64 0xAA) ?_ (by decide) (by decide)
  intro s hmem
  simp only [fields, List.mem_cons, reduceCtorEq, Field.string.injEq, List.not_mem_nil,
    false_or, or_false] at hmem
  rw [hmem]
  decide

end MicroXrceDds
