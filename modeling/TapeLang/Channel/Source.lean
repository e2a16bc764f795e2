/-!
# Byte sources

Where a program reads from.

**Results.** `ByteSource` is all that a machine asks of its input: the next
value, or `none` at the end.  `Source` gathers the inputs that this library
brings along: bytes in memory, a stream of bytes, and a script of answers that
may hold any number and may go on after its end was met.
-/

namespace TapeLang

universe u

/-- Types that can be read from, one value at a time. -/
class ByteSource (σ : Type u) where
  /-- The next value, or `none` at the end of input, and the source after it. -/
  read : σ → Option Int × σ

/-- The inputs that the library brings along. -/
inductive Source where
  /-- Bytes in memory: how many were read, and the rest. -/
  | memory (position : Nat) (unread : List UInt8)
  /-- A stream of bytes: its offset, and the rest. -/
  | stream (offset : Nat) (unread : List UInt8)
  /-- Answers given in turn, `none` once they are used up. -/
  | script (unread : List (Option Int))
deriving DecidableEq

namespace Source

/-- Bytes in memory, none of them read. -/
def ofBytes (bytes : List UInt8) : Source :=
  .memory 0 bytes

/-- A stream of bytes at its start. -/
def ofStream (bytes : List UInt8) : Source :=
  .stream 0 bytes

def read : Source → Option Int × Source
  | .memory position [] => (none, .memory position [])
  | .memory position (b :: rest) => (some b.toNat, .memory (position + 1) rest)
  | .stream offset [] => (none, .stream offset [])
  | .stream offset (b :: rest) => (some b.toNat, .stream (offset + 1) rest)
  | .script [] => (none, .script [])
  | .script (answer :: rest) => (answer, .script rest)

/-- How many bytes have been read, where the source counts them. -/
def position? : Source → Option Nat
  | .memory position _ => some position
  | .stream offset _ => some offset
  | .script _ => none

/-- How much is still to be read, where the source knows it. -/
def remaining? : Source → Option Nat
  | .memory _ unread => some unread.length
  | .stream _ _ => none
  | .script unread => some unread.length

end Source

instance : ByteSource Source where
  read := Source.read

end TapeLang
