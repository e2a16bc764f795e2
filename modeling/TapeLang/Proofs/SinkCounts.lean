import Mathlib.Tactic
import TapeLang.Proofs.Representations

/-!
# What sinks hold and count

A buffer keeps its bytes and nothing else; a stream counts them beside carrying them, and may
be flushed after every one.

**Input.** An environment with an empty buffer or an unused stream, and any numbers.
**Algorithm.** `Environment.write` writes one number and `Environment.writeAll` one after
another; a number that is refused changes nothing, and the next one goes on.
**Results.** `Environment.write_outlet`: one write adds a byte to all that a sink keeps track of
or leaves all of it alone.  So the bytes, their count and the flushes stay in step over any
sequence of writes: `Environment.writeAll_outlet`, and `sinks_never_miscount` in terms of what
an environment shows.
-/

namespace TapeLang

namespace Environment

/-- Writes a number.  One that is refused tells why, and leaves the environment as it is. -/
def write (env : Environment) (value : Int) : Option Refusal × Environment :=
  match ByteSink.write env.sink value with
  | .error why => (some why, env)
  | .ok sink => (none, { env with sink := sink })

/-- The environment after numbers were written in turn, those that are refused included. -/
def writeAll (env : Environment) (values : List Int) : Environment :=
  values.foldl (fun env value => (env.write value).2) env

end Environment

/-- Why an outlet refuses a number that is not a byte; a recorder refuses none. -/
def Outlet.refusal? : Outlet → Option Refusal
  | .buffer => some .bufferRange
  | .stream _ => some .streamRange
  | .recorder => none

/-- The numbers of a sequence that are bytes, in order. -/
def bytesAmong (values : List Int) : List UInt8 :=
  (values.filter isByte).map byteOf

section Bytes

theorem isByte_iff {value : Int} : isByte value = true ↔ 0 ≤ value ∧ value ≤ 255 := by
  simp only [isByte, decide_eq_true_eq]
  omega

theorem bytesAmong_cons (value : Int) (values : List Int) :
    bytesAmong (value :: values) =
      (if isByte value then [byteOf value] else []) ++ bytesAmong values := by
  by_cases hvalue : isByte value = true <;> simp [bytesAmong, hvalue]

/-- A number that is a byte is kept as it is. -/
theorem map_toNat_bytesAmong (values : List Int) :
    (bytesAmong values).map (fun b => (b.toNat : Int)) =
      values.filter fun value => 0 ≤ value ∧ value ≤ 255 := by
  induction values with
  | nil => rfl
  | cons value values ih =>
      rw [bytesAmong_cons, List.map_append, ih, List.filter_cons]
      by_cases hvalue : isByte value = true
      · have hbounds := isByte_iff.1 hvalue
        simp [hvalue, hbounds, toNat_byteOf_of_isByte hvalue]
      · have hbounds : ¬ (0 ≤ value ∧ value ≤ 255) := fun h => hvalue (isByte_iff.2 h)
        simp [hvalue, hbounds]

end Bytes

namespace Outlet

variable {outlet : Outlet} {value : Int} (bytes : List UInt8)

theorem write_of_isByte (h : isByte value = true) :
    ByteSink.write (outlet.sink bytes) value = .ok (outlet.sink (bytes ++ [byteOf value])) := by
  have htakes : ByteSink.refusal? (outlet.sink bytes) value = none :=
    Sink.refusal?_of_isByte h
  have hput := outlet.put_sink bytes (byteOf value)
  rw [toNat_byteOf_of_isByte h] at hput
  rw [ByteSink.write, htakes]
  exact congrArg Except.ok hput

theorem write_of_not_isByte {why : Refusal} (houtlet : outlet.refusal? = some why)
    (h : ¬ isByte value = true) :
    ByteSink.write (outlet.sink bytes) value = .error why := by
  cases outlet with
  | buffer
  | stream autoflush =>
      cases houtlet
      simp [ByteSink.write, ByteSink.refusal?, sink, Sink.refusal?, h]
  | recorder => cases houtlet

end Outlet

namespace Environment

section Writes

variable {outlet : Outlet} {why : Refusal} (houtlet : outlet.refusal? = some why)
variable (source : Source)
include houtlet

/-- All that one write can do: a byte is added to everything that the sink keeps track of, and
any other number is refused. -/
theorem write_outlet (bytes : List UInt8) (value : Int) :
    (Environment.mk source (outlet.sink bytes)).write value =
      if isByte value then
        (none, ⟨source, outlet.sink (bytes ++ [byteOf value])⟩)
      else
        (some why, ⟨source, outlet.sink bytes⟩) := by
  rw [write]
  by_cases hvalue : isByte value = true
  · rw [if_pos hvalue, Outlet.write_of_isByte bytes hvalue]
  · rw [if_neg hvalue, Outlet.write_of_not_isByte bytes houtlet hvalue]

/-- After any writes the sink is in step with the bytes among them. -/
theorem writeAll_outlet (bytes : List UInt8) (values : List Int) :
    (Environment.mk source (outlet.sink bytes)).writeAll values =
      ⟨source, outlet.sink (bytes ++ bytesAmong values)⟩ := by
  induction values generalizing bytes with
  | nil =>
      rw [bytesAmong, List.filter_nil, List.map_nil, List.append_nil]
      rfl
  | cons value values ih =>
      have hstep : (Environment.mk source (outlet.sink bytes)).writeAll (value :: values) =
          ((Environment.mk source (outlet.sink bytes)).write value).2.writeAll values := rfl
      rw [hstep, write_outlet houtlet, bytesAmong_cons]
      by_cases hvalue : isByte value = true
      · rw [if_pos hvalue, if_pos hvalue, ih, List.append_assoc]
      · rw [if_neg hvalue, if_neg hvalue, ih, List.nil_append]

theorem outputSize_outlet (bytes : List UInt8) :
    (Environment.mk source (outlet.sink bytes)).outputSize = bytes.length := by
  cases outlet with
  | buffer => rfl
  | stream autoflush => rfl
  | recorder => cases houtlet

end Writes

end Environment

/-- **Sinks never miscount.**  After any numbers were written to a fresh buffer or stream, a
further one is taken if and only if it is a byte, and otherwise refused without a change.  The
bytes held are the numbers from 0 to 255 among those written, in order; the output size is
their number, a buffer shows them as captured and a stream shows none, and a stream was flushed
once for each of them or never. -/
theorem sinks_never_miscount {outlet : Outlet} {why : Refusal} {env : Environment}
    (source : Source) (values : List Int) (houtlet : outlet.refusal? = some why)
    (hwritten : (Environment.mk source outlet.start).writeAll values = env) :
    (∀ value,
      ((env.write value).1 = none ↔ 0 ≤ value ∧ value ≤ 255) ∧
        ((env.write value).1 ≠ none → env.write value = (some why, env)))
      ∧
    env.source = source
      ∧
    ∃ bytes : List UInt8,
      bytes.map (fun b => (b.toNat : Int)) =
          values.filter (fun value => 0 ≤ value ∧ value ≤ 255) ∧
        env.outputSize = bytes.length ∧
        (outlet = .buffer → env.captured = bytes) ∧
        ∀ autoflush, outlet = .stream autoflush →
          env.captured = [] ∧ env.sink.carried? = some bytes ∧
            env.sink.flushes? = some (if autoflush then bytes.length else 0) := by
  rw [← Outlet.sink_nil, Environment.writeAll_outlet houtlet, List.nil_append] at hwritten
  subst hwritten
  refine ⟨fun value => ?_, rfl, bytesAmong values, map_toNat_bytesAmong values,
    Environment.outputSize_outlet houtlet source _, ?_, ?_⟩
  · rw [Environment.write_outlet houtlet, ← isByte_iff]
    by_cases hvalue : isByte value = true <;> simp [hvalue]
  · rintro rfl
    rfl
  · rintro autoflush rfl
    exact ⟨rfl, rfl, rfl⟩

/-- Two bytes among numbers that are too large or negative: a buffer holds them, and a stream
that is flushed after every byte counts two flushes and refuses one more number. -/
theorem sinks_never_miscount_mixed :
    (∃ env, (Environment.mk (.ofBytes []) .newBuffer).writeAll [65, 300, -1, 0] = env ∧
      env.captured.map (fun b => (b.toNat : Int)) = [65, 0]) ∧
      ∃ env, (Environment.mk (.ofBytes []) (.newStream true)).writeAll [65, 300, -1, 0] = env ∧
        env.outputSize = 2 ∧ env.captured = [] ∧ env.sink.flushes? = some 2 ∧
        env.write 256 = (some .streamRange, env) := by
  have hbuffer : Outlet.buffer.refusal? = some .bufferRange := rfl
  have hstream : (Outlet.stream true).refusal? = some .streamRange := rfl
  refine ⟨⟨_, rfl, ?_⟩, _, rfl, ?_⟩
  · obtain ⟨-, -, bytes, hbytes, -, hheld, -⟩ :=
      sinks_never_miscount (.ofBytes []) [65, 300, -1, 0] hbuffer rfl
    exact (congrArg _ (hheld rfl)).trans hbytes
  · obtain ⟨hcalls, -, bytes, hbytes, hsize, -, hshown⟩ :=
      sinks_never_miscount (.ofBytes []) [65, 300, -1, 0] hstream rfl
    obtain ⟨hcaptured, -, hflushes⟩ := hshown true rfl
    have hlength : bytes.length = 2 := by simpa using congrArg List.length hbytes
    rw [hlength] at hsize hflushes
    exact ⟨hsize, hcaptured, hflushes, (hcalls 256).2 (by decide)⟩

end TapeLang
