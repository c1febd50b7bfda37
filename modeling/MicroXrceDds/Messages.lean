import MicroXrceDds.Message

/-!
# The message types of `ros2::msg`

`std_msgs`, `sensor_msgs` and `geometry_msgs`. Floats are bit patterns, and the
content of a `str` is its UTF-8 bytes.
-/
namespace MicroXrceDds

open Prog

/-- The bytes of a `str`. -/
def utf8 (s : String) : Bytes := s.toByteArray.data.toList

/-- `core::str::from_utf8`. -/
def fromUtf8 (bytes : Bytes) : Option String := String.fromUTF8? ⟨bytes.toArray⟩

theorem length_utf8 (s : String) : (utf8 s).length = s.utf8ByteSize := rfl

theorem fromUtf8_utf8 (s : String) : fromUtf8 (utf8 s) = some s := by
  have h : ByteArray.mk (utf8 s).toArray = s.toByteArray := by
    simp only [utf8, Array.toArray_toList]
  simp only [fromUtf8, String.fromUTF8?, h, dif_pos s.isValidUTF8]
  rfl

theorem utf8_of_fromUtf8 {bytes : Bytes} {s : String} (h : fromUtf8 bytes = some s) :
    utf8 s = bytes := by
  unfold fromUtf8 String.fromUTF8? at h
  split at h
  · cases h
    rfl
  · cases h

def stringInlineMax : Nat := 64

structure Float32 where
  data : UInt32
  deriving DecidableEq, Repr

instance [Target] : Message Float32 where
  typeName := ascii "std_msgs::msg::dds_::Float32_"
  maxSerializedSize := 4
  serialize m := [.f32Val m.data]
  deserialize := do
    let v ← CdrReader.f32Val
    pure ⟨v⟩

structure StdInt32 where
  data : Int32
  deriving DecidableEq, Repr

instance [Target] : Message StdInt32 where
  typeName := ascii "std_msgs::msg::dds_::Int32_"
  maxSerializedSize := 4
  serialize m := [.i32Val m.data]
  deserialize := do
    let v ← CdrReader.i32Val
    pure ⟨v⟩

/-- The borrowed `std_msgs::String`, for publishing only. -/
structure StdString where
  data : String
  deriving DecidableEq

instance [Target] : Message StdString where
  typeName := ascii "std_msgs::msg::dds_::String_"
  maxSerializedSize := 4 + stringInlineMax + 1
  serialize m := [.string (utf8 m.data)]
  deserialize := throw .deserialization

/-- The owned form, backed by a `heapless::String<N>`. -/
structure StringOwned (N : Nat) where
  data : String
  fits : data.utf8ByteSize ≤ N
  deriving DecidableEq

instance [Target] (N : Nat) : Message (StringOwned N) where
  typeName := ascii "std_msgs::msg::dds_::String_"
  maxSerializedSize := 4 + N + 1
  serialize m := [.string (utf8 m.data)]
  deserialize := do
    let bytes ← CdrReader.stringBytes
    match fromUtf8 bytes with
    | none => throw .deserialization
    | some s => if h : s.utf8ByteSize ≤ N then pure ⟨s, h⟩ else throw .deserialization

def writeTime (sec : Int32) (nanosec : UInt32) : List CdrCall := [.i32Val sec, .u32Val nanosec]

/-- A `std_msgs/Header` with zero stamp and empty frame id. -/
def writeHeaderZero : List CdrCall := writeTime 0 0 ++ [.string []]

/-- The three reads that skip a header in every `deserialize` with one. -/
def readHeader [Target] : ReadCdr Unit := do
  let _ ← CdrReader.i32Val
  let _ ← CdrReader.u32Val
  let _ ← CdrReader.stringBytes
  pure ()

structure Range where
  radiationType : UInt8
  fieldOfView : UInt32
  minRange : UInt32
  maxRange : UInt32
  range : UInt32
  variance : UInt32
  deriving DecidableEq, Repr

instance [Target] : Message Range where
  typeName := ascii "sensor_msgs::msg::dds_::Range_"
  maxSerializedSize := 48
  serialize m := writeHeaderZero ++ [.u8Val m.radiationType, .f32Val m.fieldOfView,
    .f32Val m.minRange, .f32Val m.maxRange, .f32Val m.range, .f32Val m.variance]
  deserialize := do
    readHeader
    let radiationType ← CdrReader.u8Val
    let fieldOfView ← CdrReader.f32Val
    let minRange ← CdrReader.f32Val
    let maxRange ← CdrReader.f32Val
    let range ← CdrReader.f32Val
    let variance ← CdrReader.f32Val
    pure ⟨radiationType, fieldOfView, minRange, maxRange, range, variance⟩

structure Imu where
  orientation : List.Vector UInt64 4
  orientationCovariance : List.Vector UInt64 9
  angularVelocity : List.Vector UInt64 3
  angularVelocityCovariance : List.Vector UInt64 9
  linearAcceleration : List.Vector UInt64 3
  linearAccelerationCovariance : List.Vector UInt64 9
  deriving DecidableEq

instance [Target] : Message Imu where
  typeName := ascii "sensor_msgs::msg::dds_::Imu_"
  maxSerializedSize := 320
  serialize m := writeHeaderZero ++ [.f64Array m.orientation.toList,
    .f64Array m.orientationCovariance.toList, .f64Slice m.angularVelocity.toList,
    .f64Array m.angularVelocityCovariance.toList, .f64Slice m.linearAcceleration.toList,
    .f64Array m.linearAccelerationCovariance.toList]
  deserialize := do
    readHeader
    let orientation ← CdrReader.f64Array 4
    let orientationCovariance ← CdrReader.f64Array 9
    let angularVelocity ← CdrReader.f64Array 3
    let angularVelocityCovariance ← CdrReader.f64Array 9
    let linearAcceleration ← CdrReader.f64Array 3
    let linearAccelerationCovariance ← CdrReader.f64Array 9
    pure ⟨orientation, orientationCovariance, angularVelocity, angularVelocityCovariance,
      linearAcceleration, linearAccelerationCovariance⟩

structure Vector3 where
  x : UInt64
  y : UInt64
  z : UInt64
  deriving DecidableEq, Repr

def Vector3.serializeInline (v : Vector3) : List CdrCall := [.f64Val v.x, .f64Val v.y, .f64Val v.z]

def Vector3.deserializeInline [Target] : ReadCdr Vector3 := do
  let x ← CdrReader.f64Val
  let y ← CdrReader.f64Val
  let z ← CdrReader.f64Val
  pure ⟨x, y, z⟩

structure Twist where
  linear : Vector3
  angular : Vector3
  deriving DecidableEq, Repr

instance [Target] : Message Twist where
  typeName := ascii "geometry_msgs::msg::dds_::Twist_"
  maxSerializedSize := 48
  serialize m := m.linear.serializeInline ++ m.angular.serializeInline
  deserialize := do
    let linear ← Vector3.deserializeInline
    let angular ← Vector3.deserializeInline
    pure ⟨linear, angular⟩

end MicroXrceDds
