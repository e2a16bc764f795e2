import Mathlib.Tactic
import TapeLang.Machine.Run
import TapeLang.Proofs.LoopTree

/-!
# Machines with the pointer on the tape

A store is a tape of a fixed number of cells with a pointer on one of them, a
source and a sink.  It has no place for a pointer off the tape.

**Results.** `Primitive.effect` says what a primitive operation does to a store,
and `Store.dispatch_primitive` that the machine does the same.  Together with
`Store.dispatch_loopOpen` and `Store.dispatch_loopClose` this is all that one
instruction can do to a machine whose pointer is on the tape; `Store.stepCase`
lists what one step can do.
-/

namespace TapeLang

universe u v

variable {size : Nat} {σ : Type u} {τ : Type v}

/-- A tape of `size` cells with a pointer on it, and the input and output. -/
structure Store (size : Nat) (σ : Type u) (τ : Type v) where
  cells : Vector UInt8 size
  pointer : Fin size
  source : σ
  sink : τ

/-- What comes of a primitive operation: a store, or a failure and the store that
it leaves. -/
inductive Effect (size : Nat) (σ : Type u) (τ : Type v) where
  | done (s : Store size σ τ)
  | failed (why : Failure) (s : Store size σ τ)

namespace Store

/-- The cell under the pointer. -/
def cell (s : Store size σ τ) : UInt8 :=
  s.cells[s.pointer]

/-- The store with another value in the cell under the pointer. -/
def put (s : Store size σ τ) (value : UInt8) : Store size σ τ :=
  { s with cells := s.cells.set s.pointer value }

/-- A tape of zeros, with the pointer on its first cell. -/
def blank (hsize : 0 < size) (source : σ) (sink : τ) : Store size σ τ :=
  { cells := Vector.replicate size 0, pointer := ⟨0, hsize⟩, source := source, sink := sink }

/-- The machine of a store, at an instruction and after a number of steps. -/
def machine (s : Store size σ τ) (pc steps : Int) : Machine σ τ :=
  { state :=
      { cells := s.cells.toArray, pointer := s.pointer.val, pc := pc, steps := steps }
    source := s.source
    sink := s.sink }

end Store

namespace Effect

/-- The progress of the machine that an effect comes to. -/
def progress (pc steps : Int) : Effect size σ τ → Progress σ τ
  | .done s => .running (s.machine (pc + 1) (steps + 1))
  | .failed why s => .failed why (s.machine pc steps)

end Effect

namespace Primitive

/-- What a primitive operation at index `pc` does to a store. -/
def effect [ByteSource σ] [ByteSink τ] (config : Config) (pc : Int)
    (s : Store size σ τ) : Primitive → Effect size σ τ
  | .moveRight =>
      if h : s.pointer.val + 1 < size then
        .done { s with pointer := ⟨s.pointer.val + 1, h⟩ }
      else
        .failed (.fault (.pointerOutOfBounds (s.pointer.val + 1) config.tapeSize pc)) s
  | .moveLeft =>
      if s.pointer.val = 0 then
        .failed (.fault (.pointerOutOfBounds (-1) config.tapeSize pc)) s
      else
        .done { s with pointer := ⟨s.pointer.val - 1, by omega⟩ }
  | .increment => .done (s.put (s.cell + 1))
  | .decrement => .done (s.put (s.cell - 1))
  | .output =>
      match ByteSink.refusal? s.sink s.cell.toNat with
      | some why => .failed (.breakdown (.refused why)) s
      | none => .done { s with sink := ByteSink.put s.sink s.cell.toNat }
  | .input =>
      match ByteSource.read s.source, config.eof with
      | (some value, rest), _ => .done ({ s with source := rest }.put (byteOf value))
      | (none, rest), .error =>
          .failed (.fault (.inputExhausted pc)) { s with source := rest }
      | (none, rest), .zero => .done ({ s with source := rest }.put 0)
      | (none, rest), .unchanged => .done { s with source := rest }

end Primitive

section Bytes

theorem byteOf_toNat_add_one (v : UInt8) : byteOf (v.toNat + 1) = v + 1 := by
  apply UInt8.toNat_inj.1
  have h := toNat_byteOf (v.toNat + 1)
  rw [UInt8.toNat_add]
  have h1 : (1 : UInt8).toNat = 1 := rfl
  omega

theorem byteOf_toNat_sub_one (v : UInt8) : byteOf (v.toNat + -1) = v - 1 := by
  apply UInt8.toNat_inj.1
  have h := toNat_byteOf (v.toNat + -1)
  have hv := v.toNat_lt
  rw [UInt8.toNat_sub]
  have h1 : (1 : UInt8).toNat = 1 := rfl
  omega

end Bytes

namespace Program

theorem exists_fetch? (program : Program) {i : Nat} (h : i < program.length) :
    ∃ x, program.fetch? i = some x := by
  have hplace : place? program.code.size i = some i :=
    place?_eq_some_iff.2 ⟨h, Or.inl rfl⟩
  have hcode : i < program.code.size := h
  exact ⟨program.code[i], by simp [fetch?, hplace, hcode]⟩

theorem lt_length_of_fetch? {program : Program} {i : Nat} {x : Instruction}
    (h : program.fetch? i = some x) : i < program.length := by
  rw [fetch?, Option.bind_eq_some_iff] at h
  obtain ⟨place, hplace, -⟩ := h
  obtain ⟨hlt, hindex⟩ := place?_eq_some_iff.1 hplace
  rw [length]
  omega

end Program

namespace Store

section Views

variable (s : Store size σ τ) (pc steps : Int)

@[simp] theorem pc_machine : (s.machine pc steps).state.pc = pc :=
  rfl

@[simp] theorem steps_machine : (s.machine pc steps).state.steps = steps :=
  rfl

@[simp] theorem source_machine : (s.machine pc steps).source = s.source :=
  rfl

@[simp] theorem sink_machine : (s.machine pc steps).sink = s.sink :=
  rfl

@[simp] theorem pointer_machine : (s.machine pc steps).state.pointer = s.pointer.val :=
  rfl

theorem size_machine : (s.machine pc steps).state.cells.size = size :=
  s.cells.size_toArray

theorem address?_machine :
    (s.machine pc steps).state.address? = some s.pointer.val := by
  rw [State.address?, size_machine, place?_eq_some_iff]
  exact ⟨s.pointer.isLt, Or.inl rfl⟩

theorem valueAt_machine :
    (s.machine pc steps).state.valueAt s.pointer.val = s.cell := by
  simp [State.valueAt, machine, cell, Array.getD]

theorem cell?_machine : (s.machine pc steps).state.cell? = some s.cell := by
  rw [State.cell?, address?_machine, Option.map_some, valueAt_machine]

theorem storeAt_machine (value : UInt8) :
    (s.machine pc steps).storeAt s.pointer.val value = (s.put value).machine pc steps := by
  simp [Machine.storeAt, State.storeAt, machine, put, Array.setIfInBounds]

theorem next_machine :
    (s.machine pc steps).next = .running (s.machine (pc + 1) (steps + 1)) :=
  rfl

theorem store_machine (value : Int) :
    (s.machine pc steps).store value =
      .running ((s.put (byteOf value)).machine (pc + 1) (steps + 1)) := by
  rw [Machine.store, address?_machine]
  simp only [storeAt_machine, next_machine]

theorem add_machine (value : Int) :
    (s.machine pc steps).add value =
      .running ((s.put (byteOf (s.cell.toNat + value))).machine (pc + 1) (steps + 1)) := by
  rw [Machine.add, address?_machine]
  simp only [storeAt_machine, valueAt_machine, next_machine]

theorem bracket_machine (jumps : JumpTable) (test : UInt8 → Bool) :
    (s.machine pc steps).bracket jumps test =
      if test s.cell then
        (s.machine pc steps).jump jumps
      else
        .running (s.machine (pc + 1) (steps + 1)) := by
  rw [Machine.bracket, cell?_machine]
  simp only [next_machine]

theorem jump_machine {jumps : JumpTable} {target : Int}
    (h : jumps.target? pc = some target) :
    (s.machine pc steps).jump jumps = .running (s.machine (target + 1) (steps + 1)) := by
  rw [Machine.jump, pc_machine, h]
  rfl

theorem jump_machine_of_none {jumps : JumpTable} (h : jumps.target? pc = none) :
    (s.machine pc steps).jump jumps =
      .failed (.breakdown (.missingJump pc)) (s.machine pc steps) := by
  rw [Machine.jump, pc_machine, h]
  rfl

end Views

section Dispatch

variable [ByteSource σ] [ByteSink τ] {config : Config}
variable (s : Store size σ τ) (pc steps : Int) (jumps : JumpTable)

/-- The machine carries out a primitive operation as its effect on the store says. -/
theorem dispatch_primitive (hsize : config.tapeSize.value = size) (p : Primitive) :
    (s.machine pc steps).dispatch config jumps p.instruction =
      (p.effect config pc s).progress pc steps := by
  cases p with
  | moveRight =>
      rw [Primitive.instruction, Machine.dispatch, Machine.moveRight, Primitive.effect]
      by_cases h : s.pointer.val + 1 < size
      · rw [if_neg (by rw [hsize, pointer_machine]; omega), dif_pos h]
        rfl
      · rw [if_pos (by rw [hsize, pointer_machine]; omega), dif_neg h]
        rfl
  | moveLeft =>
      rw [Primitive.instruction, Machine.dispatch, Machine.moveLeft, Primitive.effect]
      by_cases h : s.pointer.val = 0
      · rw [if_pos (by rw [pointer_machine]; omega), if_pos h]
        rfl
      · have hpointer : (s.pointer.val : Int) - 1 = ((s.pointer.val - 1 : Nat) : Int) := by
          omega
        rw [if_neg (by rw [pointer_machine]; omega), if_neg h, pointer_machine, hpointer]
        rfl
  | increment =>
      simp only [Primitive.instruction, Machine.dispatch, add_machine,
        byteOf_toNat_add_one]
      rfl
  | decrement =>
      simp only [Primitive.instruction, Machine.dispatch, add_machine,
        byteOf_toNat_sub_one]
      rfl
  | output =>
      simp only [Primitive.instruction, Machine.dispatch, Machine.write, cell?_machine,
        sink_machine, Primitive.effect]
      cases ByteSink.refusal? s.sink s.cell.toNat with
      | none => rfl
      | some why => rfl
  | input =>
      simp only [Primitive.instruction, Machine.dispatch, Machine.read, source_machine,
        Primitive.effect]
      obtain ⟨value, rest⟩ := ByteSource.read s.source
      cases value with
      | some value => exact store_machine { s with source := rest } pc steps value
      | none =>
          cases config.eof with
          | error => rfl
          | zero => exact store_machine { s with source := rest } pc steps 0
          | unchanged => rfl

theorem dispatch_loopOpen :
    (s.machine pc steps).dispatch config jumps .loopOpen =
      if s.cell = 0 then
        (s.machine pc steps).jump jumps
      else
        .running (s.machine (pc + 1) (steps + 1)) := by
  rw [Machine.dispatch, bracket_machine]
  simp only [beq_iff_eq]

theorem dispatch_loopClose :
    (s.machine pc steps).dispatch config jumps .loopClose =
      if s.cell = 0 then
        .running (s.machine (pc + 1) (steps + 1))
      else
        (s.machine pc steps).jump jumps := by
  rw [Machine.dispatch, bracket_machine]
  by_cases h : s.cell = 0 <;> simp [h]

end Dispatch

section Step

variable [ByteSource σ] [ByteSink τ]

/-- The bracket at an index jumps: an opening one on a zero cell, a closing one on
any other. -/
def Jumps (s : Store size σ τ) (program : Program) (pc : Nat) : Prop :=
  (program.fetch? pc = some .loopOpen ∧ s.cell = 0) ∨
    (program.fetch? pc = some .loopClose ∧ s.cell ≠ 0)

/-- All that one step can do to a machine whose pointer is on the tape. -/
inductive StepCase (config : Config) (program : Program) (s : Store size σ τ)
    (pc : Nat) (steps : Int) : Progress σ τ → Prop
  | past (hpc : program.length ≤ pc) :
      StepCase config program s pc steps (.halted (s.machine pc steps))
  | spent {limit : Setting}
      (hpc : pc < program.length)
      (hspent : config.spent? steps = some limit) :
      StepCase config program s pc steps
        (.failed (.fault (.stepLimitExceeded limit pc)) (s.machine pc steps))
  | primitive {p : Primitive} {next : Store size σ τ}
      (hspent : config.spent? steps = none)
      (hfetch : program.fetch? pc = some p.instruction)
      (heffect : p.effect config pc s = .done next) :
      StepCase config program s pc steps (.running (next.machine (pc + 1) (steps + 1)))
  | primitiveFails {p : Primitive} {why : Failure} {left : Store size σ τ}
      (hspent : config.spent? steps = none)
      (hfetch : program.fetch? pc = some p.instruction)
      (heffect : p.effect config pc s = .failed why left) :
      StepCase config program s pc steps (.failed why (left.machine pc steps))
  | jump {target : Int}
      (hspent : config.spent? steps = none)
      (hjumps : s.Jumps program pc)
      (htarget : program.jumps.target? pc = some target) :
      StepCase config program s pc steps (.running (s.machine (target + 1) (steps + 1)))
  | missing
      (hspent : config.spent? steps = none)
      (hjumps : s.Jumps program pc)
      (htarget : program.jumps.target? pc = none) :
      StepCase config program s pc steps
        (.failed (.breakdown (.missingJump pc)) (s.machine pc steps))
  | pass
      (hspent : config.spent? steps = none)
      (hpc : pc < program.length)
      (hjumps : ¬ s.Jumps program pc) :
      StepCase config program s pc steps (.running (s.machine (pc + 1) (steps + 1)))

theorem stepCase_of_jumps {config : Config} {program : Program} {s : Store size σ τ}
    {pc : Nat} {steps : Int} (hspent : config.spent? steps = none)
    (hjumps : s.Jumps program pc) :
    StepCase config program s pc steps ((s.machine pc steps).jump program.jumps) := by
  cases htarget : program.jumps.target? pc with
  | none =>
      rw [jump_machine_of_none s pc steps htarget]
      exact .missing hspent hjumps htarget
  | some target =>
      rw [jump_machine s pc steps htarget]
      exact .jump hspent hjumps htarget

/-- Every step of a machine with its pointer on the tape is one of the cases. -/
theorem stepCase {config : Config} (hsize : config.tapeSize.value = size)
    (program : Program) (s : Store size σ τ) (pc : Nat) (steps : Int) :
    StepCase config program s pc steps ((s.machine pc steps).step config program) := by
  rw [Machine.step, pc_machine, steps_machine]
  rcases Nat.lt_or_ge pc program.length with hpc | hpc
  · rw [if_pos (by omega)]
    cases hspent : config.spent? steps with
    | some limit => exact .spent hpc hspent
    | none =>
        obtain ⟨x, hfetch⟩ := program.exists_fetch? hpc
        simp only [hfetch]
        by_cases hopen : x = .loopOpen
        · subst hopen
          rw [dispatch_loopOpen]
          split
          · next hzero => exact stepCase_of_jumps hspent (Or.inl ⟨hfetch, hzero⟩)
          · next hzero =>
              refine .pass hspent hpc ?_
              simp [Jumps, hfetch, hzero]
        by_cases hclose : x = .loopClose
        · subst hclose
          rw [dispatch_loopClose]
          split
          · next hzero =>
              refine .pass hspent hpc ?_
              simp [Jumps, hfetch, hzero]
          · next hzero => exact stepCase_of_jumps hspent (Or.inr ⟨hfetch, hzero⟩)
        obtain ⟨p, rfl⟩ := Primitive.exists_instruction_eq hopen hclose
        rw [dispatch_primitive s pc steps program.jumps hsize p]
        cases heffect : p.effect config pc s with
        | done next => exact .primitive hspent hfetch heffect
        | failed why left => exact .primitiveFails hspent hfetch heffect
  · rw [if_neg (by omega)]
    exact .past hpc

end Step

section Start

/-- The tape of a run is laid out blank. -/
theorem boot_eq {config : Config} (hsize : config.tapeSize.value = size)
    (hpos : 0 < size) (hfits : tapeBreakdown? size = none) (source : σ) (sink : τ) :
    Machine.boot config source sink = .running ((blank hpos source sink).machine 0 0) := by
  rw [Machine.boot, hsize, hfits]
  simp [machine, blank, State.blank]

theorem eq_of_boot {config : Config} (hsize : config.tapeSize.value = size)
    (hpos : 0 < size) {source : σ} {sink : τ} {start : Machine σ τ}
    (h : Machine.boot config source sink = .running start) :
    start = (blank hpos source sink).machine 0 0 := by
  cases hfits : tapeBreakdown? size with
  | some why =>
      rw [Machine.boot, hsize, hfits] at h
      cases h
  | none =>
      rw [boot_eq hsize hpos hfits] at h
      exact (Progress.running.inj h).symm

end Start

end Store
end TapeLang
