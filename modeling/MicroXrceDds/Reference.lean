import MicroXrceDds.Library.Cdr
import MicroXrceDds.ReaderSafety
import MicroXrceDds.CdrRoundTrip

/-!
# The writer against the format

What a complete message of each type is in the format, with any header, and that the
serializer writes just that, with a header of zeros.
-/
namespace MicroXrceDds

open LittleEndian
open Cdr (Item)

theorem padTo_eq {k : Nat} (hk : 0 < k) (out : Bytes) :
    padTo k out = out ++ Cdr.gap k out.length := by
  have hmod := Nat.mod_lt out.length hk
  have hpad : padding k out.length = (k - out.length % k) % k := by
    unfold padding
    split
    · next h => rw [h, Nat.sub_zero, Nat.mod_self]
    · next h => rw [Nat.mod_eq_of_lt (show k - out.length % k < k by omega)]
  rw [padTo, hpad, Cdr.gap]

/-- What a writer call stands for. -/
def CdrCall.items : CdrCall → List Item
  | .header => [.u8 0x00, .u8 0x01, .u8 0x00, .u8 0x00]
  | .u8Val v => [.u8 v]
  | .boolVal v => [.u8 (if v then 1 else 0)]
  | .i32Val v => [.i32 v]
  | .u32Val v => [.u32 v]
  | .f32Val v => [.u32 v]
  | .f64Val v => [.u64 v]
  | .string s => [.text s]
  | .f64Array vs => vs.map .u64
  | .f64Slice vs => vs.map .u64

/-- An empty array is no item, but the writer aligns for it. -/
def CdrCall.Solid : CdrCall → Prop
  | .f64Array vs => vs ≠ []
  | .f64Slice vs => vs ≠ []
  | _ => True

theorem encode_u8 (pos : Nat) (v : UInt8) : (Item.u8 v).encode pos = [v] := by
  have hbyte : UInt8.ofNat v.toBitVec.toNat = v := UInt8.ofNat_toNat
  have hgap : Cdr.gap 1 pos = [] := by rw [Cdr.gap, Nat.mod_one]; rfl
  simp only [Item.u8, Item.encode, hgap]
  exact congrArg (fun b => [b]) hbyte

/-- From an aligned position the doubles follow each other without a gap. -/
theorem encode_doubles (vs : List UInt64) {pos : Nat} (h : pos % 8 = 0) :
    Cdr.encode pos (vs.map .u64) = vs.flatMap fun v => leBytes 8 v.toNat := by
  induction vs generalizing pos with
  | nil => rfl
  | cons v vs ih =>
    have hv : (Item.u64 v).encode pos = leBytes 8 v.toNat := by
      simp only [Item.u64, Item.encode, Cdr.gap, h]
      rfl
    rw [List.map_cons, Cdr.encode_cons, hv, ih (by rw [length_leBytes]; omega), List.flatMap_cons]

/-- Doubles behind any output: only the first one is aligned. -/
theorem emit_doubles {vs : List UInt64} (hvs : vs ≠ []) (out : Bytes) :
    (padTo 8 out ++ vs.flatMap fun v => leBytes 8 v.toNat) =
      out ++ Cdr.encode out.length (vs.map .u64) := by
  cases vs with
  | nil => exact absurd rfl hvs
  | cons v vs =>
    have hend : (out.length + ((Item.u64 v).encode out.length).length) % 8 = 0 := by
      have hdvd := padding_dvd (show 0 < 8 by decide) out.length
      have hpad := congrArg List.length (padTo_eq (show 0 < 8 by decide) out)
      rw [length_padTo, List.length_append] at hpad
      simp only [Item.u64, Item.encode, List.length_append, length_leBytes]
      omega
    rw [List.map_cons, Cdr.encode_cons, encode_doubles vs hend, padTo_eq (by decide),
      List.flatMap_cons]
    simp only [Item.u64, Item.encode, List.append_assoc]
    rfl

theorem emit_eq {c : CdrCall} (hc : c.Solid) (out : Bytes) :
    c.emit out = out ++ Cdr.encode out.length c.items := by
  have h4 := padTo_eq (show 0 < 4 by decide) out
  have h8 := padTo_eq (show 0 < 8 by decide) out
  cases c with
  | header =>
    simp only [CdrCall.items, CdrCall.emit, Cdr.encode, encode_u8, List.cons_append,
      List.nil_append]
  | u8Val v => simp only [CdrCall.items, CdrCall.emit, Cdr.encode_singleton, encode_u8]
  | boolVal v => simp only [CdrCall.items, CdrCall.emit, Cdr.encode_singleton, encode_u8]
  | i32Val v =>
    simp only [CdrCall.items, CdrCall.emit, Cdr.encode_singleton, h4, List.append_assoc]
    rfl
  | u32Val v =>
    simp only [CdrCall.items, CdrCall.emit, Cdr.encode_singleton, h4, List.append_assoc]
    rfl
  | f32Val v =>
    simp only [CdrCall.items, CdrCall.emit, Cdr.encode_singleton, h4, List.append_assoc]
    rfl
  | f64Val v =>
    simp only [CdrCall.items, CdrCall.emit, Cdr.encode_singleton, h8, List.append_assoc]
    rfl
  | string s =>
    simp only [CdrCall.items, CdrCall.emit, Cdr.encode_singleton, Item.encode, h4,
      List.append_assoc]
  | f64Array vs => exact emit_doubles hc out
  | f64Slice vs => exact emit_doubles hc out

theorem emitAll_eq {calls : List CdrCall} (hc : ∀ c ∈ calls, c.Solid) (out : Bytes) :
    emitAll out calls = out ++ Cdr.encode out.length (calls.flatMap CdrCall.items) := by
  induction calls generalizing out with
  | nil => rw [List.flatMap_nil, Cdr.encode_nil, List.append_nil]; rfl
  | cons c calls ih =>
    rw [emitAll_cons, emit_eq (hc c (List.mem_cons_self ..)),
      ih fun d hd => hc d (List.mem_cons_of_mem c hd), List.flatMap_cons, Cdr.encode_append,
      List.append_assoc, List.length_append]

/-- The writer conforms to the format. -/
theorem bodyOf_eq {calls : List CdrCall} (hc : ∀ c ∈ calls, c.Solid) :
    bodyOf calls = Cdr.encode 0 (calls.flatMap CdrCall.items) := emitAll_eq hc []

/-- A `std_msgs/Header` as any sender may fill it in. -/
structure StdHeader where
  sec : Int32
  nanosec : UInt32
  frameId : Bytes
  short : frameId.length < 2 ^ 32 - 1
  deriving DecidableEq

def StdHeader.zero : StdHeader := ⟨0, 0, [], by decide⟩

def StdHeader.items (h : StdHeader) : List Item := [.i32 h.sec, .u32 h.nanosec, .text h.frameId]

def Vector3.items (v : Vector3) : List Item := [.u64 v.x, .u64 v.y, .u64 v.z]

/-- The complete message that has the fields of a sample. A type without a header ignores
the one it is given. -/
def Ros2Msg.reference : (k : Ros2Msg) → StdHeader → k.Sample → List Item
  | .float32, _, (m : Float32) => [.u32 m.data]
  | .int32, _, (m : StdInt32) => [.i32 m.data]
  | .string, _, (m : StdString) => [.text (utf8 m.data)]
  | .stringOwned _, _, m => [.text (utf8 m.data)]
  | .range, h, (m : Range) => h.items ++ [.u8 m.radiationType, .u32 m.fieldOfView,
      .u32 m.minRange, .u32 m.maxRange, .u32 m.range, .u32 m.variance]
  | .imu, h, (m : Imu) => h.items ++ m.orientation.toList.map .u64 ++
      m.orientationCovariance.toList.map .u64 ++ m.angularVelocity.toList.map .u64 ++
      m.angularVelocityCovariance.toList.map .u64 ++ m.linearAcceleration.toList.map .u64 ++
      m.linearAccelerationCovariance.toList.map .u64
  | .twist, _, (m : Twist) => m.linear.items ++ m.angular.items

theorem solid_vector {n : Nat} (v : List.Vector UInt64 (n + 1)) : v.toList ≠ [] := by
  intro h
  have hlen := congrArg List.length h
  rw [v.toList_length, List.length_nil] at hlen
  omega

theorem body_of_items {M : Type} [Message M] {m : M} {items : List Item}
    (hc : ∀ c ∈ Message.serialize m, c.Solid)
    (hitems : (Message.serialize m).flatMap CdrCall.items = items) :
    bodyOf (Message.serialize m) = Cdr.encode 0 items := by
  rw [bodyOf_eq hc, hitems]

/-- `serialize` writes the message with a header of zeros. -/
theorem serialize_reference [Target] (k : Ros2Msg) (m : k.Sample) :
    bodyOf (Message.serialize m) = Cdr.encode 0 (k.reference .zero m) := by
  cases k with
  | float32 => exact body_of_items (M := Float32) (by simp [Message.serialize, CdrCall.Solid]) rfl
  | int32 => exact body_of_items (M := StdInt32) (by simp [Message.serialize, CdrCall.Solid]) rfl
  | string => exact body_of_items (M := StdString) (by simp [Message.serialize, CdrCall.Solid]) rfl
  | stringOwned N =>
    exact body_of_items (M := StringOwned N) (by simp [Message.serialize, CdrCall.Solid]) rfl
  | range =>
    exact body_of_items (M := Range)
      (by simp [Message.serialize, writeHeaderZero, writeTime, CdrCall.Solid]) rfl
  | imu =>
    apply body_of_items (M := Imu)
    · simp [Message.serialize, writeHeaderZero, writeTime, CdrCall.Solid, solid_vector]
    · simp [Message.serialize, writeHeaderZero, writeTime, Ros2Msg.reference, StdHeader.items,
        StdHeader.zero, CdrCall.items]
  | twist =>
    exact body_of_items (M := Twist)
      (by simp [Message.serialize, Vector3.serializeInline, CdrCall.Solid]) rfl

/-- The samples that the format can hold: the length field of a string has 32 bits. -/
def Ros2Msg.Encodable : (k : Ros2Msg) → k.Sample → Prop
  | .string, (m : StdString) => m.data.utf8ByteSize < 2 ^ 32 - 1
  | .stringOwned _, m => (StringOwned.data m).utf8ByteSize < 2 ^ 32 - 1
  | _, _ => True

theorem short_string {M : Type} [Message M] (m : M)
    (h : ∀ s, .string s ∈ Message.serialize m → s.length < 2 ^ 32 - 1) {s : Bytes}
    (hs : .string s ∈ Message.serialize m) : s.length < 2 ^ 32 - 1 := h s hs

/-- No other string is written than the content and the empty frame id. -/
theorem strings_short [Target] (k : Ros2Msg) {m : k.Sample} (hm : k.Encodable m) {s : Bytes}
    (hs : .string s ∈ Message.serialize m) : s.length < 2 ^ 32 - 1 := by
  cases k with
  | float32 => exact short_string (M := Float32) m (by simp [Message.serialize]) hs
  | int32 => exact short_string (M := StdInt32) m (by simp [Message.serialize]) hs
  | string =>
    rw [CdrCall.string.inj (List.mem_singleton.mp hs)]
    exact hm
  | stringOwned N =>
    rw [CdrCall.string.inj (List.mem_singleton.mp hs)]
    exact hm
  | range =>
    exact short_string (M := Range) m
      (by simp [Message.serialize, writeHeaderZero, writeTime]) hs
  | imu =>
    exact short_string (M := Imu) m
      (by simp [Message.serialize, writeHeaderZero, writeTime]) hs
  | twist =>
    exact short_string (M := Twist) m (by simp [Message.serialize, Vector3.serializeInline]) hs

end MicroXrceDds
