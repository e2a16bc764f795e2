import TapeLang.Byte

/-!
# Byte sinks

Where a program writes to.

**Results.** `ByteSink` is all that a machine asks of its output: to take a
value, or to tell why it does not.  `Sink` gathers the outputs that this
library brings along: a buffer in memory, a stream that may be flushed after
every byte, and a recorder that takes any number.
-/

namespace TapeLang

universe u

/-- Why a sink does not take a value. -/
inductive Refusal where
  /-- A buffer holds bytes only. -/
  | bufferRange
  /-- A stream carries bytes only. -/
  | streamRange
deriving DecidableEq

def Refusal.message : Refusal → String
  | .bufferRange => "byte must be in range(0, 256)"
  | .streamRange => "bytes must be in range(0, 256)"

/-- Types that can be written to, one value at a time. -/
class ByteSink (τ : Type u) where
  /-- Why a sink does not take a value; `none` if it takes it. -/
  refusal? : τ → Int → Option Refusal
  /-- The sink after it took a value. -/
  put : τ → Int → τ

/-- Writes a value; a value that is not taken changes nothing. -/
def ByteSink.write {τ : Type u} [ByteSink τ] (sink : τ) (value : Int) :
    Except Refusal τ :=
  match refusal? sink value with
  | some why => .error why
  | none => .ok (put sink value)

/-- The outputs that the library brings along. -/
inductive Sink where
  /-- Bytes kept in memory. -/
  | buffer (bytes : Array UInt8)
  /-- A stream: what it carried, how many bytes were counted, how often it was
  flushed, and whether it is flushed after every byte. -/
  | stream (carried : Array UInt8) (count : Nat) (flushes : Nat) (autoflush : Bool)
  /-- Any numbers, in the order in which they came. -/
  | recorder (values : Array Int)
deriving DecidableEq

namespace Sink

def newBuffer : Sink :=
  .buffer #[]

def newStream (autoflush : Bool) : Sink :=
  .stream #[] 0 0 autoflush

def newRecorder : Sink :=
  .recorder #[]

/-- A buffer and a stream take bytes only; a recorder takes any number. -/
def refusal? (sink : Sink) (value : Int) : Option Refusal :=
  match sink with
  | .buffer _ => if isByte value then none else some .bufferRange
  | .stream _ _ _ _ => if isByte value then none else some .streamRange
  | .recorder _ => none

/-- The sink after it took a value. -/
def put (sink : Sink) (value : Int) : Sink :=
  match sink with
  | .buffer bytes => .buffer (bytes.push (byteOf value))
  | .stream carried count flushes autoflush =>
      .stream (carried.push (byteOf value)) (count + 1)
        (if autoflush then flushes + 1 else flushes) autoflush
  | .recorder values => .recorder (values.push value)

/-- The bytes that a buffer holds; other sinks keep none. -/
def captured : Sink → List UInt8
  | .buffer bytes => bytes.toList
  | _ => []

/-- How many bytes were written, where the sink counts them. -/
def size : Sink → Nat
  | .buffer bytes => bytes.size
  | .stream _ count _ _ => count
  | .recorder _ => 0

def carried? : Sink → Option (List UInt8)
  | .stream carried _ _ _ => some carried.toList
  | _ => none

def flushes? : Sink → Option Nat
  | .stream _ _ flushes _ => some flushes
  | _ => none

def recorded? : Sink → Option (List Int)
  | .recorder values => some values.toList
  | _ => none

end Sink

instance : ByteSink Sink where
  refusal? := Sink.refusal?
  put := Sink.put

namespace Sink

/-- A buffer that takes a byte keeps it after those it holds. -/
@[simp] theorem captured_put_buffer (bytes : Array UInt8) (value : Int) :
    (put (.buffer bytes) value).captured = bytes.toList ++ [byteOf value] := by
  simp [put, captured]

/-- No sink refuses a byte. -/
theorem refusal?_of_isByte {sink : Sink} {value : Int} (h : isByte value = true) :
    sink.refusal? value = none := by
  cases sink <;> simp [refusal?, h]

end Sink

end TapeLang
