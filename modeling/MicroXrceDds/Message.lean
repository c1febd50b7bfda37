import MicroXrceDds.CdrWriter
import MicroXrceDds.CdrReader

/-!
# ROS2 messages

The `Message` trait of `message.rs`. A `serialize` body is the list of writer calls
it makes; a `deserialize` body is a program over the reader.
-/
namespace MicroXrceDds

class Message (M : Type) where
  typeName : Bytes
  maxSerializedSize : Nat
  serialize : M → List CdrCall
  deserialize : ReadCdr M

end MicroXrceDds
