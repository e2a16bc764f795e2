import Mathlib.Tactic
import Mathlib.Data.Int.ModEq
import TapeLang.Proofs.StepRequests

/-!
# Sources and sinks that cannot be told apart

A run sees of its source the answers to its reads, as far as a cell can hold
them, and of its sink whether a byte is refused.

**Input.** A configuration, a program with any jumps, and bytes to read.
**Results.** A reel is a source that does nothing but count its reads, and a
transcript a sink that does nothing but keep what is written.
`execute_representation_free`: whether the bytes stand in memory, come from a
stream or are a script of answers, and whether the output goes to a buffer, to a
stream or to a recorder, the run is the picture of one and the same run from a
reel to a transcript.  Any two sources whose answers are equal modulo 256, read by
read, also give the same run.
-/

namespace TapeLang

universe u v w

namespace ByteSource

variable {σ : Type u} [ByteSource σ]

/-- The source after a number of reads. -/
def after (source : σ) : Nat → σ
  | 0 => source
  | n + 1 => (read (after source n)).2

/-- What a source answers after `n` other reads. -/
def answer (source : σ) (n : Nat) : Option Int :=
  (read (after source n)).1

end ByteSource

/-- A source with answers that are fixed beforehand; it counts its reads. -/
structure Reel (answers : Nat → Option UInt8) where
  taken : Nat

instance (answers : Nat → Option UInt8) : ByteSource (Reel answers) where
  read reel := ((answers reel.taken).map fun b => (b.toNat : Int), ⟨reel.taken + 1⟩)

/-- A sink that keeps what is written, and refuses nothing. -/
structure Transcript where
  bytes : List UInt8

instance : ByteSink Transcript where
  refusal? _ _ := none
  put transcript value := ⟨transcript.bytes ++ [byteOf value]⟩

section Kinds

/-- The ways to serve bytes: from memory, from a stream, or as a script of answers
that ends with them. -/
inductive Inlet where
  | memory
  | stream
  | script

/-- The ways to take bytes: into a buffer, into a stream that is flushed after every
byte or never, or with a recorder. -/
inductive Outlet where
  | buffer
  | stream (autoflush : Bool)
  | recorder

namespace Inlet

/-- The source that serves bytes from their beginning. -/
def start : Inlet → List UInt8 → Source
  | .memory, d => .ofBytes d
  | .stream, d => .ofStream d
  | .script, d => .script (d.map fun b => some (b.toNat : Int))

/-- The source that served bytes, after `n` reads: as many of them are consumed, or
all of them. -/
def source : Inlet → List UInt8 → Nat → Source
  | .memory, d, n => .memory (min n d.length) (d.drop n)
  | .stream, d, n => .stream (min n d.length) (d.drop n)
  | .script, d, n => .script ((d.drop n).map fun b => some (b.toNat : Int))

end Inlet

namespace Outlet

/-- The sink before anything is written. -/
def start : Outlet → Sink
  | .buffer => .newBuffer
  | .stream autoflush => .newStream autoflush
  | .recorder => .newRecorder

/-- The sink after bytes were written. -/
def sink : Outlet → List UInt8 → Sink
  | .buffer, bytes => .buffer bytes.toArray
  | .stream autoflush, bytes =>
      .stream bytes.toArray bytes.length (if autoflush then bytes.length else 0) autoflush
  | .recorder, bytes => .recorder (bytes.map fun b => (b.toNat : Int)).toArray

end Outlet

end Kinds

section Maps

theorem byteOf_toNat (b : UInt8) : byteOf b.toNat = b := by
  apply UInt8.toNat_inj.1
  have h := toNat_byteOf b.toNat
  have hlt := b.toNat_lt
  omega

theorem isByte_toNat (b : UInt8) : isByte b.toNat = true := by
  have hlt := b.toNat_lt
  simp only [isByte, decide_eq_true_eq]
  omega

namespace Inlet

theorem source_zero (inlet : Inlet) (d : List UInt8) : inlet.source d 0 = inlet.start d := by
  cases inlet <;> simp [source, start, Source.ofBytes, Source.ofStream]

/-- Every inlet serves its bytes one by one, and then nothing for ever. -/
theorem read_source (inlet : Inlet) (d : List UInt8) (n : Nat) :
    ByteSource.read (inlet.source d n) =
      (d[n]?.map fun b => (b.toNat : Int), inlet.source d (n + 1)) := by
  rcases Nat.lt_or_ge n d.length with hlt | hge
  · have hdrop : d.drop n = d[n] :: d.drop (n + 1) := List.drop_eq_getElem_cons hlt
    have hmin : min (n + 1) d.length = min n d.length + 1 := by omega
    rw [List.getElem?_eq_getElem hlt]
    cases inlet with
    | memory
    | stream =>
        rw [source, source, hdrop, hmin]
        rfl
    | script =>
        rw [source, source, hdrop]
        rfl
  · have hdrop : d.drop n = [] := List.drop_eq_nil_of_le hge
    have hnext : d.drop (n + 1) = [] := List.drop_eq_nil_of_le (by omega)
    have hmin : min (n + 1) d.length = min n d.length := by omega
    rw [List.getElem?_eq_none hge]
    cases inlet with
    | memory
    | stream =>
        rw [source, source, hdrop, hnext, hmin]
        rfl
    | script =>
        rw [source, source, hdrop, hnext]
        rfl

theorem sourceMap (inlet : Inlet) (d : List UInt8) :
    SourceMap fun reel : Reel (fun n => d[n]?) => inlet.source d reel.taken where
  answer reel := by
    rw [read_source]
    rfl
  rest reel := by
    rw [read_source]
    rfl

end Inlet

namespace Outlet

theorem sink_nil (outlet : Outlet) : outlet.sink [] = outlet.start := by
  cases outlet <;> simp [sink, start, Sink.newBuffer, Sink.newStream, Sink.newRecorder]

theorem put_sink (outlet : Outlet) (bytes : List UInt8) (b : UInt8) :
    ByteSink.put (outlet.sink bytes) b.toNat = outlet.sink (bytes ++ [b]) := by
  cases outlet with
  | buffer => simp [sink, ByteSink.put, Sink.put, byteOf_toNat]
  | stream autoflush =>
      cases autoflush <;> simp [sink, ByteSink.put, Sink.put, byteOf_toNat]
  | recorder => simp [sink, ByteSink.put, Sink.put]

theorem sinkMap (outlet : Outlet) :
    SinkMap fun transcript : Transcript => outlet.sink transcript.bytes where
  refusal? transcript b := Sink.refusal?_of_isByte (isByte_toNat b)
  put transcript b := by
    rw [put_sink]
    simp [ByteSink.put, byteOf_toNat]

end Outlet

/-- A source is a picture of the reel of its answers. -/
theorem ByteSource.sourceMap_after {σ : Type u} [ByteSource σ] {source : σ}
    {answers : Nat → Option UInt8}
    (h : ∀ n, (ByteSource.answer source n).map byteOf = answers n) :
    SourceMap fun reel : Reel answers => ByteSource.after source reel.taken where
  answer reel := by
    have hself : byteOf ∘ (fun b : UInt8 => (b.toNat : Int)) = id := funext byteOf_toNat
    have hreel : (ByteSource.read reel).1 =
        (answers reel.taken).map fun b => (b.toNat : Int) := rfl
    rw [hreel, Option.map_map, hself, Option.map_id]
    exact h reel.taken
  rest reel := rfl

theorem byteOf_eq_of_modEq {a b : Int} (h : a ≡ b [ZMOD 256]) : byteOf a = byteOf b := by
  rw [byteOf, byteOf, h]

theorem map_byteOf_eq_of_rel {a b : Option Int} (h : Option.Rel (· ≡ · [ZMOD 256]) a b) :
    a.map byteOf = b.map byteOf := by
  cases h with
  | none => rfl
  | some h => exact congrArg some (byteOf_eq_of_modEq h)

end Maps

section Execute

variable {σ : Type u} {σ' : Type v} {τ : Type w}

/-- A run between an inlet and an outlet is a picture of the run from a reel to a
transcript. -/
theorem execute_inlet_outlet (patience : Nat) (config : Config) (program : Program)
    (d : List UInt8) :
    ∃ p : Progress Nat (List UInt8), ∀ (inlet : Inlet) (outlet : Outlet),
      execute patience config program (inlet.start d) outlet.start =
        p.map (inlet.source d) outlet.sink := by
  refine ⟨(execute patience config program (⟨0⟩ : Reel fun n => d[n]?)
    (⟨[]⟩ : Transcript)).map Reel.taken Transcript.bytes, fun inlet outlet => ?_⟩
  rw [Progress.map_map, ← execute_map (inlet.sourceMap d) outlet.sinkMap,
    inlet.source_zero, outlet.sink_nil]

/-- A run is a picture of the run from the reel of its answers. -/
theorem execute_reel [ByteSource σ] [ByteSink τ] (patience : Nat) (config : Config)
    (program : Program) (source : σ) (sink : τ) {answers : Nat → Option UInt8}
    (h : ∀ n, (ByteSource.answer source n).map byteOf = answers n) :
    execute patience config program source sink =
      ((execute patience config program (⟨0⟩ : Reel answers) sink).map Reel.taken id).map
        (ByteSource.after source) id := by
  rw [Progress.map_map]
  exact execute_map (ByteSource.sourceMap_after h) sinkMap_id patience config program ⟨0⟩ sink

/-- **Representations do not matter.**  Between every inlet and every outlet the same
bytes give one and the same run: there is a run of which all of them are pictures,
with the number of its reads in place of the source and the bytes that it wrote in
place of the sink.  Two sources of any sort whose answers are equal modulo 256, read
by read, give the same run as well, with the same number of reads. -/
theorem execute_representation_free [ByteSource σ] [ByteSource σ'] [ByteSink τ]
    (patience : Nat) (config : Config) (program : Program) :
    (∀ d : List UInt8, ∃ p : Progress Nat (List UInt8), ∀ (inlet : Inlet) (outlet : Outlet),
      execute patience config program (inlet.start d) outlet.start =
        p.map (inlet.source d) outlet.sink)
      ∧
    (∀ (source : σ) (other : σ') (sink : τ),
      (∀ n, Option.Rel (· ≡ · [ZMOD 256]) (ByteSource.answer source n)
        (ByteSource.answer other n)) →
      ∃ p : Progress Nat τ,
        execute patience config program source sink = p.map (ByteSource.after source) id ∧
        execute patience config program other sink = p.map (ByteSource.after other) id) := by
  refine ⟨execute_inlet_outlet patience config program, fun source other sink hrel => ?_⟩
  have hsame : ∀ n, (ByteSource.answer other n).map byteOf =
      (ByteSource.answer source n).map byteOf :=
    fun n => (map_byteOf_eq_of_rel (hrel n)).symm
  exact ⟨_, execute_reel patience config program source sink fun _ => rfl,
    execute_reel patience config program other sink hsame⟩

/-- Two scripts that go on after an end of input, with answers that differ by
multiples of 256. -/
theorem execute_representation_free_scripts :
    (∀ n, Option.Rel (· ≡ · [ZMOD 256])
        (ByteSource.answer (Source.script [some 321, none, some (-1)]) n)
        (ByteSource.answer (Source.script [some 65, none, some 255]) n)) ∧
      ∃ p : Progress Nat Sink,
        execute 6 { tapeSize := .number 1, eof := .unchanged }
            ⟨#[.input, .output, .input, .input, .output], .empty⟩
            (Source.script [some 321, none, some (-1)]) Sink.newBuffer =
          p.map (ByteSource.after (Source.script [some 321, none, some (-1)])) id ∧
        execute 6 { tapeSize := .number 1, eof := .unchanged }
            ⟨#[.input, .output, .input, .input, .output], .empty⟩
            (Source.script [some 65, none, some 255]) Sink.newBuffer =
          p.map (ByteSource.after (Source.script [some 65, none, some 255])) id := by
  have hend : ∀ (answers : List (Option Int)), answers.length = 3 →
      ∀ n, ByteSource.after (Source.script answers) (n + 3) = .script [] := by
    rintro answers hlength n
    induction n with
    | zero =>
        match answers, hlength with
        | [_, _, _], _ => rfl
    | succ n ih =>
        rw [ByteSource.after, ih]
        rfl
  have hrel : ∀ n, Option.Rel (· ≡ · [ZMOD 256])
      (ByteSource.answer (Source.script [some 321, none, some (-1)]) n)
      (ByteSource.answer (Source.script [some 65, none, some 255]) n) := by
    intro n
    match n with
    | 0 => exact .some (by decide)
    | 1 => exact .none
    | 2 => exact .some (by decide)
    | n + 3 =>
        rw [ByteSource.answer, ByteSource.answer, hend _ rfl, hend _ rfl]
        exact .none
  exact ⟨hrel, (execute_representation_free 6 _ _).2 _ _ _ hrel⟩

end Execute
end TapeLang
