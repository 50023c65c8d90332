/-!
# Messages

The bytes of one read, with the address they came from and the time they were received.

## Main definitions

* `Message`, `Bytes`
-/

namespace FeedCapture

/-- A string of bytes. -/
abbrev Bytes := List UInt8

/-- One record from one source. -/
structure Message where
  /-- The address that the bytes were read from. -/
  source : String
  /-- The bytes of exactly one read. -/
  data : Bytes
  /-- The time of receipt, in milliseconds since the start of 1970. -/
  timestamp : Int := 0
deriving DecidableEq, Repr

end FeedCapture
