import AccessPolicy.Ending
import AccessPolicy.Error

namespace AccessPolicy

/-- Yields its bytes and then ends, or fails if there is a failure. -/
structure ByteStream where
  bytes : List UInt8
  failure : Option IoError

/-- What takes bytes from a stream. It leaves the rest of the stream, with a value or an error. -/
abbrev Reading (ε : Type) :=
  EStateM ε ByteStream

/-- What comes of reading a stream whose rest is dropped. -/
def Reading.on (x : Reading ε α) (input : ByteStream) : Except ε α :=
  answerOf (x.run input)

namespace ByteStream

def ofBytes (bytes : List UInt8) : ByteStream := ⟨bytes, none⟩

/-- Takes bytes until there are `n` of them or the stream ends. After `n` bytes the stream is not
asked again, so a failure that comes later is not met. -/
def readUpTo (n : Nat) : Reading IoError (List UInt8) := fun s =>
  let taken := s.bytes.take n
  let rest := { s with bytes := s.bytes.drop n }
  if taken.length < n then
    match s.failure with
    | some e => .error e rest
    | none => .ok taken rest
  else .ok taken rest

end ByteStream

/-- The most bytes that are taken to find out whether a document exceeds `limit`. -/
def probeLength (limit : UInt64) : Nat :=
  min (limit.toNat + 1) (UInt64.size - 1)

/-- Takes the bytes of a document of at most `limit` bytes. -/
def readBytes (limit : UInt64) : Reading ConstructionError (List UInt8) := do
  let bytes ← (ByteStream.readUpTo (probeLength limit)).adaptExcept .io
  if limit.toNat < bytes.length then throw (.tooLarge limit)
  else return bytes

end AccessPolicy
