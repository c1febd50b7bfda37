import MicroXrceDds.Reference

/-!
# How long a serialized message gets

The end of a writer call depends on its position and on the length of what it writes,
so a message without a string has one size. `MAX_SERIALIZED_SIZE` bounds it for every type
but the borrowed `String`, whose content has no limit.
-/
namespace MicroXrceDds

open Prog LittleEndian

section
variable {n : Nat} {p : WriteCdr n} {g : Bytes → Bytes}

theorem Emits.bytesWritten_le (h : Emits p g) (buf : Buffer UInt8 n) :
    (p.run (CdrWriter.new buf)).2.bytesWritten ≤ (g []).length := by
  rcases h buf [] _ (CdrWriter.wrote_new buf) with ⟨-, hwrote⟩ | ⟨-, hlong⟩
  · rw [CdrWriter.bytesWritten, hwrote.pos]
    exact Nat.min_le_left _ _
  · rw [CdrWriter.bytesWritten]
    omega

theorem Emits.bytesWritten_eq (h : Emits p g) (buf : Buffer UInt8 n) (hfit : (g []).length ≤ n) :
    (p.run (CdrWriter.new buf)).2.bytesWritten = (g []).length := by
  rcases h buf [] _ (CdrWriter.wrote_new buf) with ⟨-, hwrote⟩ | ⟨-, hlong⟩
  · rw [CdrWriter.bytesWritten, hwrote.pos]
    exact Nat.min_eq_left hfit
  · omega

end

/-- A string that overflows its length field leaves nothing behind the alignment. -/
theorem string_overflows [Target] {n : Nat} {s : Bytes} (h : LengthOverflows s)
    (buf : Buffer UInt8 n) :
    ((CdrWriter.string s).run (CdrWriter.new buf)).2.bytesWritten = 0 := by
  simp only [CdrWriter.string, CdrWriter.align, run_modify_bind, addIn_overflows h, run_panic_bind]
  exact Nat.zero_min n

section
variable [t : Target]

/-- What `serialize` writes is within the bound that its type declares, in every buffer. -/
def WithinMaxSize {M : Type} [Message M] (m : M) : Prop :=
  ∀ n (buf : Buffer UInt8 n),
    ((runCalls (Message.serialize m)).run (CdrWriter.new buf)).2.bytesWritten ≤
      Message.maxSerializedSize M

/-- A message that the format can hold. -/
theorem within_of_length (k : Ros2Msg) {m : k.Sample} (hm : k.Encodable m)
    (hlen : (bodyOf (Message.serialize m)).length ≤ Message.maxSerializedSize k.Sample) :
    WithinMaxSize m := by
  intro n buf
  have hemits : Emits (runCalls (Message.serialize m) : WriteCdr n) _ :=
    runCalls_emits fun s hs => .inl (strings_short k hm hs)
  exact Nat.le_trans (hemits.bytesWritten_le buf) hlen

/-- A message that is one string stays below a limit exactly when the string does, or when
the serializer gives up on it. -/
theorem string_within_iff (s : Bytes) (limit : Nat) :
    (∀ n (buf : Buffer UInt8 n),
      ((runCalls [.string s]).run (CdrWriter.new buf)).2.bytesWritten ≤ 4 + limit + 1) ↔
      s.length ≤ limit ∨ LengthOverflows s := by
  have hlen : (emitAll [] [.string s]).length = 4 + s.length + 1 := by
    simp [length_emitAll, CdrCall.endsAt, padding]
  by_cases hover : LengthOverflows s
  · constructor
    · intro _
      exact .inr hover
    · intro _ n buf
      have hcalls : (runCalls [.string s] : WriteCdr n) = CdrWriter.string s := bind_pure _
      rw [hcalls, string_overflows hover buf]
      exact Nat.zero_le _
  · have hemits (n : Nat) :
        Emits (runCalls [.string s] : WriteCdr n) fun out => emitAll out [.string s] := by
      apply runCalls_emits_of
      simp [hover]
    constructor
    · intro h
      have hn := h (4 + s.length + 1) ⟨List.replicate _ 0, List.length_replicate⟩
      rw [(hemits _).bytesWritten_eq _ (Nat.le_of_eq hlen), hlen] at hn
      exact .inl (by omega)
    · rintro (hle | hcontra) n buf
      · have hn := (hemits n).bytesWritten_le buf
        rw [hlen] at hn
        omega
      · exact absurd hcontra hover

theorem length_float32 (m : Float32) : (bodyOf (Message.serialize m)).length = 4 := by
  simp [length_bodyOf, Message.serialize, CdrCall.endsAt, padding]

theorem length_int32 (m : StdInt32) : (bodyOf (Message.serialize m)).length = 4 := by
  simp [length_bodyOf, Message.serialize, CdrCall.endsAt, padding]

/-- A header of 13 bytes, the radiation type, two bytes of padding and five floats. -/
theorem length_range (m : Range) : (bodyOf (Message.serialize m)).length = 36 := by
  simp [length_bodyOf, Message.serialize, writeHeaderZero, writeTime, CdrCall.endsAt, padding]

/-- A header of 13 bytes, three bytes of padding and 37 doubles. -/
theorem length_imu (m : Imu) : (bodyOf (Message.serialize m)).length = 312 := by
  simp [length_bodyOf, Message.serialize, writeHeaderZero, writeTime, CdrCall.endsAt, padding]

theorem length_twist (m : Twist) : (bodyOf (Message.serialize m)).length = 48 := by
  simp [length_bodyOf, Message.serialize, Vector3.serializeInline, CdrCall.endsAt, padding]

/-- The samples that keep to the bound of their type. -/
def Ros2Msg.SizeFits : (k : Ros2Msg) → k.Sample → Prop
  | .string, (m : StdString) =>
      m.data.utf8ByteSize ≤ stringInlineMax ∨ LengthOverflows (utf8 m.data)
  | _, _ => True

/-- `MAX_SERIALIZED_SIZE` bounds the serialization of every message but that of a borrowed
`String` with more than `STRING_INLINE_MAX` bytes. -/
theorem within_max_size_iff (k : Ros2Msg) (m : k.Sample) : WithinMaxSize m ↔ k.SizeFits m := by
  cases k with
  | float32 =>
    exact iff_of_true (within_of_length .float32 trivial (Nat.le_of_eq (length_float32 m))) trivial
  | int32 =>
    exact iff_of_true (within_of_length .int32 trivial (Nat.le_of_eq (length_int32 m))) trivial
  | string => exact string_within_iff (utf8 m.data) stringInlineMax
  | stringOwned N =>
    exact iff_of_true ((string_within_iff (utf8 m.data) N).mpr (.inl m.fits)) trivial
  | range =>
    have hlen := Nat.le_trans (Nat.le_of_eq (length_range m)) (show 36 ≤ 48 by decide)
    exact iff_of_true (within_of_length .range trivial hlen) trivial
  | imu =>
    have hlen := Nat.le_trans (Nat.le_of_eq (length_imu m)) (show 312 ≤ 320 by decide)
    exact iff_of_true (within_of_length .imu trivial hlen) trivial
  | twist =>
    exact iff_of_true (within_of_length .twist trivial (Nat.le_of_eq (length_twist m))) trivial

end

/-- A string of 65 bytes, one more than the bound of 69 leaves room for, takes 70. -/
theorem long_string_exceeds :
    letI := rp2040 true
    ¬ WithinMaxSize (⟨String.ofList (List.replicate 65 'a')⟩ : StdString) := by
  let target := rp2040 true
  have hlen : (utf8 (String.ofList (List.replicate 65 'a'))).length = 65 := by decide +kernel
  intro h
  have hwithin := (string_within_iff (utf8 (String.ofList (List.replicate 65 'a')))
    stringInlineMax).mp h
  rw [hlen] at hwithin
  rcases hwithin with hle | hover
  · exact absurd hle (by decide)
  · exact absurd hover.2 (by rw [hlen]; decide)

end MicroXrceDds
