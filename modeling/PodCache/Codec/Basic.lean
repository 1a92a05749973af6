import PodCache.Bytes
import PodCache.Error

/-!
# Codecs

A codec turns the values of a cache into the bytes that the store and the peers see, and back.
Either direction may fail.
-/

namespace PodCache

/-- How values of type `V` are stored. -/
structure Codec (V : Type) where
  encode : V → Except Error Bytes
  decode : Bytes → Except Error V

namespace Codec

variable {V : Type}

/-- A codec that writes every value and reads what `read` accepts. -/
def ofReader (write : V → Bytes) (read : Bytes → Option V) : Codec V where
  encode v := .ok (write v)
  decode bytes :=
    match read bytes with
    | some v => .ok v
    | none => .error (.deserialization "malformed value")

/-- The same codec for the values that pass a test; the others cannot be written. -/
def refusing (codec : Codec V) (refused : V → Bool) (detail : String) : Codec V where
  encode v := if refused v then .error (.serialization detail) else codec.encode v
  decode := codec.decode

end Codec

/-- A user of some service: the record that the codecs are illustrated with. -/
structure User where
  id : UInt64
  name : String
  deriving DecidableEq, Repr

end PodCache
