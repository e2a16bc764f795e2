import TapeLang.Machine.State
import TapeLang.Channel.Environment

/-!
# One step of the machine

A machine is a state with a source and a sink of any type.

**Input.** A configuration, a program and a machine.
**Algorithm.** The machine halts once its next instruction lies past the end of
the code.  Before each instruction the step budget is checked; then the
instruction is carried out.  A jump that is taken goes to the place after its
target.
**Results.** `Machine.step` gives the machine after one instruction, the halted
machine, or what stopped it.  A machine that is stopped keeps the state in
which the failing instruction found it.  `Progress.stop?` is what is raised then:
a fault takes the record of that state along.
-/

namespace TapeLang

universe u v

/-- What stops a machine without being a fault of the language: a program or a
configuration that was never checked. -/
inductive Breakdown where
  /-- A jump is taken that the table does not hold. -/
  | missingJump (source : Int)
  /-- The pointer is off the tape. -/
  | cellOffTape
  /-- The next instruction lies before the code. -/
  | instructionOffCode
  /-- The sink does not take a cell's value. -/
  | refused (why : Refusal)
  /-- The tape has more cells than can be addressed. -/
  | tapeTooLarge
  /-- The tape has less than no cells. -/
  | tapeNegative
deriving DecidableEq

def Breakdown.message : Breakdown → String
  | .missingJump source => toString source
  | .cellOffTape => "bytearray index out of range"
  | .instructionOffCode => "tuple index out of range"
  | .refused why => why.message
  | .tapeTooLarge => "cannot fit 'int' into an index-sized integer"
  | .tapeNegative => "negative count"

inductive Failure where
  | fault (f : Fault)
  | breakdown (b : Breakdown)
deriving DecidableEq

/-- A state with its input and output. -/
structure Machine (σ : Type u) (τ : Type v) where
  state : State
  source : σ
  sink : τ

/-- How far a machine has come. -/
inductive Progress (σ : Type u) (τ : Type v) where
  | running (m : Machine σ τ)
  | halted (m : Machine σ τ)
  | failed (why : Failure) (m : Machine σ τ)

namespace Progress

variable {σ : Type u} {τ : Type v}

def machine : Progress σ τ → Machine σ τ
  | .running m => m
  | .halted m => m
  | .failed _ m => m

/-- Whether the machine can go on. -/
def isRunning : Progress σ τ → Bool
  | .running _ => true
  | _ => false

/-- Goes on with a machine that is still running. -/
def andThen (p : Progress σ τ) (more : Machine σ τ → Progress σ τ) : Progress σ τ :=
  match p with
  | .running m => more m
  | ended => ended

@[simp] theorem andThen_running (m : Machine σ τ)
    (more : Machine σ τ → Progress σ τ) :
    (Progress.running m).andThen more = more m :=
  rfl

end Progress

section Stops

variable {σ : Type u} {τ : Type v}

/-- What is raised when a machine is stopped. -/
structure Stop where
  why : Failure
  /-- The record of the state, if there is one. -/
  record? : Option Snapshot
deriving DecidableEq

/-- The steps on record; none if there is no record. -/
def Stop.steps (stop : Stop) : Int :=
  (stop.record?.map Snapshot.steps).getD 0

/-- What a failure of a machine raises.  A fault takes the record of the state
along, a breakdown does not. -/
def Machine.stop (config : Config) (m : Machine σ τ) : Failure → Stop
  | .fault f => ⟨.fault f, some (m.state.snapshot config.tapeSize State.defaultRadius)⟩
  | .breakdown b => ⟨.breakdown b, none⟩

/-- What was raised, if the machine was stopped. -/
def Progress.stop? (config : Config) : Progress σ τ → Option Stop
  | .failed why m => some (m.stop config why)
  | _ => none

end Stops

namespace Config

/-- Whether the budget is spent after a number of steps; if so, its limit. -/
def spent? (config : Config) (steps : Int) : Option Setting :=
  config.maxSteps.filter fun limit => limit.value ≤ steps

end Config

namespace Machine

variable {σ : Type u} {τ : Type v}

section Moves

/-- Goes on with the instruction after index `pc`, one step later. -/
def goOn (m : Machine σ τ) (pc : Int) : Progress σ τ :=
  .running { m with state := m.state.goOn pc }

/-- Goes on with the next instruction. -/
def next (m : Machine σ τ) : Progress σ τ :=
  m.goOn m.state.pc

def fault (m : Machine σ τ) (f : Fault) : Progress σ τ :=
  .failed (.fault f) m

def breakdown (m : Machine σ τ) (b : Breakdown) : Progress σ τ :=
  .failed (.breakdown b) m

def pointTo (m : Machine σ τ) (pointer : Int) : Machine σ τ :=
  { m with state := m.state.pointTo pointer }

def storeAt (m : Machine σ τ) (address : Nat) (value : UInt8) : Machine σ τ :=
  { m with state := m.state.storeAt address value }

/-- Stores a number in the current cell and goes on. -/
def store (m : Machine σ τ) (value : Int) : Progress σ τ :=
  match m.state.address? with
  | none => m.breakdown .cellOffTape
  | some a => (m.storeAt a (byteOf value)).next

/-- Adds a number to the current cell and goes on. -/
def add (m : Machine σ τ) (value : Int) : Progress σ τ :=
  match m.state.address? with
  | none => m.breakdown .cellOffTape
  | some a => (m.storeAt a (byteOf ((m.state.valueAt a).toNat + value))).next

/-- Takes the jump of the current bracket. -/
def jump (m : Machine σ τ) (jumps : JumpTable) : Progress σ τ :=
  match jumps.target? m.state.pc with
  | none => m.breakdown (.missingJump m.state.pc)
  | some target => m.goOn target

/-- Goes on with a bracket: it jumps if the current cell passes the test. -/
def bracket (m : Machine σ τ) (jumps : JumpTable) (test : UInt8 → Bool) :
    Progress σ τ :=
  match m.state.cell? with
  | none => m.breakdown .cellOffTape
  | some value => if test value then m.jump jumps else m.next

def moveRight (m : Machine σ τ) (config : Config) : Progress σ τ :=
  if config.tapeSize.value ≤ m.state.pointer + 1 then
    m.fault
      (.pointerOutOfBounds (m.state.pointer + 1) config.tapeSize m.state.pc)
  else
    (m.pointTo (m.state.pointer + 1)).next

def moveLeft (m : Machine σ τ) (config : Config) : Progress σ τ :=
  if m.state.pointer = 0 then
    m.fault (.pointerOutOfBounds (-1) config.tapeSize m.state.pc)
  else
    (m.pointTo (m.state.pointer - 1)).next

/-- Writes the current cell to the sink. -/
def write [ByteSink τ] (m : Machine σ τ) : Progress σ τ :=
  match m.state.cell? with
  | none => m.breakdown .cellOffTape
  | some value =>
      match ByteSink.refusal? m.sink value.toNat with
      | some why => m.breakdown (.refused why)
      | none => { m with sink := ByteSink.put m.sink value.toNat }.next

def endOfInput (m : Machine σ τ) : EofPolicy → Progress σ τ
  | .error => m.fault (.inputExhausted m.state.pc)
  | .zero => m.store 0
  | .unchanged => m.next

/-- Reads from the source into the current cell. -/
def read [ByteSource σ] (m : Machine σ τ) (config : Config) : Progress σ τ :=
  match ByteSource.read m.source with
  | (some value, source) => { m with source := source }.store value
  | (none, source) => { m with source := source }.endOfInput config.eof

end Moves

section Step

variable [ByteSource σ] [ByteSink τ]

def dispatch (config : Config) (jumps : JumpTable) (m : Machine σ τ) :
    Instruction → Progress σ τ
  | .moveRight => m.moveRight config
  | .moveLeft => m.moveLeft config
  | .increment => m.add 1
  | .decrement => m.add (-1)
  | .output => m.write
  | .input => m.read config
  | .loopOpen => m.bracket jumps (· == 0)
  | .loopClose => m.bracket jumps (· != 0)

/-- One step: halts, stops at a spent budget, or carries out the instruction
that is next. -/
def step (config : Config) (program : Program) (m : Machine σ τ) :
    Progress σ τ :=
  if m.state.pc < program.length then
    match config.spent? m.state.steps with
    | some limit => m.fault (.stepLimitExceeded limit m.state.pc)
    | none =>
        match program.fetch? m.state.pc with
        | none => m.breakdown .instructionOffCode
        | some instruction => dispatch config program.jumps m instruction
  else
    .halted m

end Step

end Machine
end TapeLang
