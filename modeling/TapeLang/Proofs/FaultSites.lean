import Mathlib.Tactic
import TapeLang.Proofs.BoundedHalting
import TapeLang.Report

/-!
# Where faults strike

**Input.** A configuration that was checked, code with the table that `resolve`
gives, a source of bytes and a sink of the library.
**Algorithm.** `Fault.Strikes` says of a machine which fault meets its next
instruction, if any: a spent budget comes before everything else, then an edge of
the tape or the end of input.
**Results.** By `Machine.step_of_strikes` a fault that strikes stops the machine as
it is, and by `Machine.strikes_of_step_failed` nothing else stops it.
`execute_fault_sites` states this of whole runs: the state, the output and the input
that a failed run leaves are those of its completed steps, the record that the fault
takes along is that of the state, and a report on it shows the steps on record.
-/

namespace TapeLang

namespace Source

/-- The bytes that are still to be read, if the source serves bytes. -/
def bytes? : Source → Option (List UInt8)
  | .memory _ unread => some unread
  | .stream _ unread => some unread
  | .script _ => none

/-- The source serves bytes, from memory or from a stream. -/
def ServesBytes (source : Source) : Prop :=
  ∃ unread, source.bytes? = some unread

/-- At its end a source of bytes stays as it is. -/
theorem read_of_bytes?_nil {source : Source} (h : source.bytes? = some []) :
    ByteSource.read source = (none, source) := by
  cases source with
  | memory position unread =>
      cases h
      rfl
  | stream offset unread =>
      cases h
      rfl
  | script answers => cases h

/-- A source of bytes has no answer at its end only. -/
theorem bytes?_of_read_none {source : Source} (hbytes : source.ServesBytes)
    (h : (ByteSource.read source).1 = none) :
    source.bytes? = some [] := by
  obtain ⟨unread, hunread⟩ := hbytes
  cases source with
  | memory position rest =>
      cases rest with
      | nil => rfl
      | cons b rest => cases h
  | stream offset rest =>
      cases rest with
      | nil => rfl
      | cons b rest => cases h
  | script answers => cases hunread

theorem ServesBytes.read {source : Source} (h : source.ServesBytes) :
    (ByteSource.read source).2.ServesBytes := by
  obtain ⟨unread, hunread⟩ := h
  cases source with
  | memory position rest =>
      cases rest with
      | nil => exact ⟨[], rfl⟩
      | cons b rest => exact ⟨rest, rfl⟩
  | stream offset rest =>
      cases rest with
      | nil => exact ⟨[], rfl⟩
      | cons b rest => exact ⟨rest, rfl⟩
  | script answers => cases hunread

end Source

/-- The instruction that is next. -/
def State.Next (code : List Instruction) (s : State) (x : Instruction) : Prop :=
  ∃ i : Nat, s.pc = i ∧ code[i]? = some x

/-- The budget, if there is one, is not spent after a number of steps. -/
def Config.Affords (config : Config) (steps : Int) : Prop :=
  ∀ limit ∈ config.maxSteps, steps < limit.value

/-- The fault that the next instruction of a machine meets. -/
inductive Fault.Strikes (config : Config) (code : List Instruction)
    (m : Machine Source Sink) : Fault → Prop
  | stepLimit {limit : Setting}
      (hlimit : config.maxSteps = some limit)
      (hspent : limit.value ≤ m.state.steps) :
      Fault.Strikes config code m (.stepLimitExceeded limit m.state.pc)
  | rightEdge
      (hbudget : config.Affords m.state.steps)
      (hnext : m.state.Next code .moveRight)
      (hedge : m.state.pointer = config.tapeSize.value - 1) :
      Fault.Strikes config code m
        (.pointerOutOfBounds config.tapeSize.value config.tapeSize m.state.pc)
  | leftEdge
      (hbudget : config.Affords m.state.steps)
      (hnext : m.state.Next code .moveLeft)
      (hedge : m.state.pointer = 0) :
      Fault.Strikes config code m (.pointerOutOfBounds (-1) config.tapeSize m.state.pc)
  | inputEnd
      (hbudget : config.Affords m.state.steps)
      (hnext : m.state.Next code .input)
      (hend : m.source.bytes? = some [])
      (heof : config.eof = .error) :
      Fault.Strikes config code m (.inputExhausted m.state.pc)

theorem Config.spent?_eq_none_iff {config : Config} {steps : Int} :
    config.spent? steps = none ↔ config.Affords steps := by
  constructor
  · intro h limit hlimit
    have hleft := Machine.budget_of_spent? h limit hlimit
    omega
  · intro h
    rw [Option.eq_none_iff_forall_ne_some]
    intro limit hsome
    obtain ⟨hlimit, hspent⟩ := Config.spent?_eq_some_iff.1 hsome
    have hleft := h limit hlimit
    omega

/-- A fault names the instruction that it strikes. -/
theorem Fault.Strikes.pc?_eq {config : Config} {code : List Instruction}
    {m : Machine Source Sink} {f : Fault} (h : f.Strikes config code m) :
    f.pc? = some m.state.pc := by
  cases h <;> rfl

namespace Machine

section Step

variable {config : Config} {code : List Instruction} {jumps : JumpTable}
variable {m : Machine Source Sink} {f : Fault}

theorem step_of_next (hbudget : config.Affords m.state.steps) {x : Instruction}
    (hnext : m.state.Next code x) :
    m.step config ⟨code.toArray, jumps⟩ = m.dispatch config jumps x := by
  obtain ⟨i, hpc, hx⟩ := hnext
  have hfetch : (Program.mk code.toArray jumps).fetch? i = some x := by
    rw [Program.fetch?_mk_toArray, hx]
  have hlt := Program.lt_length_of_fetch? hfetch
  rw [step, Config.spent?_eq_none_iff.2 hbudget, hpc, if_pos (Int.ofNat_lt.2 hlt)]
  simp only [hfetch]

/-- A fault that strikes stops the machine as it is. -/
theorem step_of_strikes (hpc : m.state.pc < code.length) (h : f.Strikes config code m) :
    m.step config ⟨code.toArray, jumps⟩ = .failed (.fault f) m := by
  cases h with
  | stepLimit hlimit hspent =>
      have hlength : m.state.pc < (Program.mk code.toArray jumps).length := by
        simpa [Program.length] using hpc
      rw [step, if_pos hlength, Config.spent?_eq_some_iff.2 ⟨hlimit, hspent⟩]
      rfl
  | rightEdge hbudget hnext hedge =>
      have hattempt : m.state.pointer + 1 = config.tapeSize.value := by omega
      rw [step_of_next hbudget hnext, dispatch, moveRight, if_pos (by omega), hattempt]
      rfl
  | leftEdge hbudget hnext hedge =>
      rw [step_of_next hbudget hnext, dispatch, moveLeft, if_pos hedge]
      rfl
  | inputEnd hbudget hnext hend heof =>
      rw [step_of_next hbudget hnext, dispatch, read, Source.read_of_bytes?_nil hend, heof]
      rfl

/-- A primitive operation fails because a fault strikes. -/
theorem strikes_of_effect_failed {size : Nat} (hsize : config.tapeSize.value = size)
    {p : Primitive} {s left : Store size Source Sink} {pc : Nat} {steps : Int}
    {why : Failure} (hbytes : s.source.ServesBytes) (hbudget : config.Affords steps)
    (hfetch : code[pc]? = some p.instruction)
    (h : p.effect config pc s = .failed why left) :
    ∃ f, why = .fault f ∧ f.Strikes config code (s.machine pc steps) := by
  have hnext : (s.machine pc steps).state.Next code p.instruction := ⟨pc, rfl, hfetch⟩
  cases p with
  | moveRight =>
      rw [Primitive.effect] at h
      split at h
      · cases h
      · next hedge =>
          cases h
          have hpointer := s.pointer.isLt
          have hattempt : (s.pointer.val : Int) + 1 = config.tapeSize.value := by omega
          refine ⟨_, rfl, ?_⟩
          rw [hattempt]
          exact .rightEdge hbudget hnext (by rw [Store.pointer_machine]; omega)
  | moveLeft =>
      rw [Primitive.effect] at h
      split at h
      · next hedge =>
          cases h
          exact ⟨_, rfl, .leftEdge hbudget hnext (by rw [Store.pointer_machine, hedge]; rfl)⟩
      · cases h
  | increment => cases h
  | decrement => cases h
  | output =>
      have htakes : ByteSink.refusal? s.sink (s.cell.toNat : Int) = none :=
        Sink.refusal?_of_isByte (isByte_toNat s.cell)
      rw [Primitive.effect, htakes] at h
      cases h
  | input =>
      rw [Primitive.effect] at h
      split at h
      · cases h
      · next rest hread heof =>
          cases h
          have hend := Source.bytes?_of_read_none hbytes (by rw [hread])
          exact ⟨_, rfl, .inputEnd hbudget hnext hend heof⟩
      · cases h
      · cases h

/-- A machine on track fails because a fault strikes. -/
theorem strikes_of_step_failed {size : Nat} (hsize : config.tapeSize.value = size)
    (hresolve : Loop.resolve code = .ok jumps) {sink : Sink}
    (htrack : OnTrack config size sink m) (hbytes : m.source.ServesBytes) {why : Failure}
    {last : Machine Source Sink}
    (h : m.step config ⟨code.toArray, jumps⟩ = .failed why last) :
    ∃ f, why = .fault f ∧ f.Strikes config code m := by
  obtain ⟨s, pc, steps, rfl, hcase⟩ := htrack.stepCase hsize h
  cases hcase with
  | spent hpc hspent =>
      obtain ⟨hlimit, hle⟩ := Config.spent?_eq_some_iff.1 hspent
      exact ⟨_, rfl, .stepLimit hlimit hle⟩
  | primitiveFails hspent hfetch heffect =>
      rw [Program.fetch?_mk_toArray] at hfetch
      exact strikes_of_effect_failed hsize hbytes (Config.spent?_eq_none_iff.1 hspent)
        hfetch heffect
  | missing hspent hjumps htarget =>
      obtain ⟨target, hsome, -⟩ := exists_target_of_takesJump hresolve
        (s.pc_machine pc steps) (takesJump_machine hjumps)
      rw [htarget] at hsome
      cases hsome

end Step

theorem Reached.servesBytes {config : Config} {program : Program} {source : Source}
    {sink : Sink} {k : Nat} {m : Machine Source Sink}
    (h : Reached config program source sink k m) (hbytes : source.ServesBytes) :
    m.source.ServesBytes :=
  h.source_of_read (P := Source.ServesBytes) (fun _ hserves => hserves.read) hbytes

end Machine

section Execute

variable {config : Config} {program : Program} {source : Source} {sink : Sink}

/-- A run raises a fault after `k` steps, and is left with a machine. -/
def Raises (config : Config) (program : Program) (source : Source) (sink : Sink) (k : Nat)
    (f : Fault) (m : Machine Source Sink) : Prop :=
  ∀ patience, k < patience →
    execute patience config program source sink = .failed (.fault f) m

/-- Interpreting a script that is loaded ends as its run does. -/
theorem interpret_of_load (patience : Nat) (config : Config) (script : Script)
    (h : script.load = .ok program) (env : Environment) :
    interpret patience config script env =
      Ending.ofProgress config (env.execute patience config program) := by
  rw [interpret, attempt, h]
  rfl

/-- Interpreting a script reports the fault that its run raises, and leaves the
environment as the run does. -/
theorem Raises.interpret {k : Nat} {f : Fault} {m : Machine Source Sink}
    (h : Raises config program source sink k f m) {script : Script}
    (hload : script.load = .ok program) {patience : Nat} (hpatience : k < patience) :
    interpret patience config script ⟨source, sink⟩ =
      ((Environment.mk m.source m.sink).report (.error f) m.state.steps,
        ⟨m.source, m.sink⟩) := by
  rw [interpret_of_load patience config script hload, Environment.execute,
    h patience hpatience]
  rfl

variable {code : List Instruction} {jumps : JumpTable} {k : Nat} {m : Machine Source Sink}

/-- In a machine that a run has reached, the run raises the fault that strikes, and
goes on if none does. -/
theorem raises_iff_strikes {size : Nat} (hsize : config.tapeSize.value = size)
    (hpos : 0 < size) (hbudget : ∀ limit ∈ config.maxSteps, 1 ≤ limit.value)
    (hresolve : Loop.resolve code = .ok jumps) (hbytes : source.ServesBytes)
    (hreached : Machine.Reached config ⟨code.toArray, jumps⟩ source sink k m)
    (hpc : m.state.pc < code.length) :
    (∀ f, Raises config ⟨code.toArray, jumps⟩ source sink k f m ↔ f.Strikes config code m)
      ∧
    ((∃ next, Machine.Reached config ⟨code.toArray, jumps⟩ source sink (k + 1) next) ↔
      ∀ f : Fault, ¬ f.Strikes config code m) := by
  have htargets : ∀ i target, jumps.target? i = some target → -1 ≤ target :=
    fun _ _ htarget => (Loop.nonneg_of_resolve hresolve htarget).trans' (by omega)
  have htrack := hreached.onTrack hsize hpos hbudget htargets
  have hserves := hreached.servesBytes hbytes
  have hfailed : ∀ {why last},
      m.step config ⟨code.toArray, jumps⟩ = .failed why last →
        ∃ f, why = .fault f ∧ f.Strikes config code m :=
    fun h => Machine.strikes_of_step_failed hsize hresolve htrack hserves h
  constructor
  · intro f
    constructor
    · intro hraises
      obtain ⟨start, hboot, -⟩ := id hreached
      obtain ⟨k', last, hlast, hstep⟩ :=
        exists_reached_of_execute_failed hboot (hraises (k + 1) (by omega))
      have hcount := congrArg State.steps (Machine.state_of_step_failed hstep)
      rw [hreached.steps_eq, hlast.steps_eq] at hcount
      obtain rfl : k = k' := by omega
      obtain rfl := hreached.unique hlast
      obtain ⟨g, hg, hstrikes⟩ := hfailed hstep
      obtain rfl := Failure.fault.inj hg
      exact hstrikes
    · intro hstrikes patience hpatience
      exact hreached.execute_eq (Machine.step_of_strikes hpc hstrikes) rfl
        (hreached.lt_fuel htrack.budget hpatience)
  · rw [hreached.exists_succ_iff]
    constructor
    · rintro ⟨next, hstep⟩ f hstrikes
      rw [Machine.step_of_strikes hpc hstrikes] at hstep
      cases hstep
    · intro hnone
      cases hstep : m.step config ⟨code.toArray, jumps⟩ with
      | running next => exact ⟨next, rfl⟩
      | halted last =>
          have hpast := (Machine.step_eq_halted_iff.1 hstep).1
          simp only [Program.length, List.size_toArray] at hpast
          omega
      | failed why last =>
          obtain ⟨f, -, hstrikes⟩ := hfailed hstep
          exact absurd hstrikes (hnone f)

/-- **Fault sites.**  Let a run of accepted code, with a checked configuration and a
source of bytes, have reached a machine after `k` completed steps, with an instruction
left to carry out.  It raises the fault that strikes there, and no other; if none
strikes, it completes the step.  The fault names the instruction.  It is raised with a
record of `k` steps and of the cells around the pointer.  The machine that the run leaves
is the one that was reached, so its source and sink are those of the completed steps.
Whoever interprets the program is told the number of steps on record, and kind and
message of the fault. -/
theorem execute_fault_sites {tapeSize eof maxSteps : Option Json}
    (hconfig : Config.ofFields tapeSize eof maxSteps = .ok config)
    (hresolve : Loop.resolve code = .ok jumps) (hbytes : source.ServesBytes)
    (hreached : Machine.Reached config ⟨code.toArray, jumps⟩ source sink k m)
    (hpc : m.state.pc < code.length) :
    (∀ f, Raises config ⟨code.toArray, jumps⟩ source sink k f m ↔ f.Strikes config code m)
      ∧
    ((∃ next, Machine.Reached config ⟨code.toArray, jumps⟩ source sink (k + 1) next) ↔
      ∀ f : Fault, ¬ f.Strikes config code m)
      ∧
    (∀ f : Fault, f.Strikes config code m → ∀ patience, k < patience →
      f.pc? = some m.state.pc
        ∧
      (execute patience config ⟨code.toArray, jumps⟩ source sink).stop? config =
        some
          { why := .fault f
            record? := some
              { tapeSize := config.tapeSize
                pointer := m.state.pointer
                pc := m.state.pc
                steps := k
                cells := m.state.window 8 } }
        ∧
      (∀ why last,
        execute patience config ⟨code.toArray, jumps⟩ source sink = .failed why last →
        why = .fault f ∧ last.state = m.state ∧ last.source = m.source ∧
          last.sink = m.sink)
        ∧
      (∀ script : Script, script.load = .ok ⟨code.toArray, jumps⟩ →
        ∃ r, interpret patience config script ⟨source, sink⟩ =
            (.reported r, ⟨m.source, m.sink⟩) ∧
          r.success = false ∧ r.steps = k ∧ r.errorKind? = some f.kind ∧
            r.errors = [f.message])) := by
  obtain ⟨hone, hbudget⟩ := Config.bounds_of_ofFields hconfig
  obtain ⟨size, hsize⟩ := Int.eq_ofNat_of_zero_le (show 0 ≤ config.tapeSize.value by omega)
  obtain ⟨hraises, hgoes⟩ :=
    raises_iff_strikes hsize (by omega) hbudget hresolve hbytes hreached hpc
  have hsteps := hreached.steps_eq
  refine ⟨hraises, hgoes, fun f hstrikes patience hpatience =>
    ⟨hstrikes.pc?_eq, ?_, ?_, ?_⟩⟩
  · rw [(hraises f).2 hstrikes patience hpatience, ← hsteps]
    rfl
  · intro why last hlast
    rw [(hraises f).2 hstrikes patience hpatience] at hlast
    cases hlast
    exact ⟨rfl, rfl, rfl, rfl⟩
  · intro script hload
    exact ⟨_, ((hraises f).2 hstrikes).interpret hload hpatience, rfl, hsteps, rfl, rfl⟩

/-- The code `+,` on one cell and an empty stream: after the first step the input is at
its end, and the record of the fault shows one step and the cell. -/
theorem execute_fault_sites_exhausted :
    Config.ofFields (some (.int 1)) none none = .ok { tapeSize := .number 1 } ∧
      Loop.resolve [.increment, .input] = .ok .empty ∧
      Machine.Reached { tapeSize := .number 1 } ⟨[.increment, .input].toArray, .empty⟩
        (Source.ofStream []) Sink.newBuffer 1
        ⟨⟨#[1], 0, 1, 1⟩, Source.ofStream [], Sink.newBuffer⟩ ∧
      (∀ patience, 1 < patience →
        execute patience { tapeSize := .number 1 } ⟨[.increment, .input].toArray, .empty⟩
            (Source.ofStream []) Sink.newBuffer =
          .failed (.fault (.inputExhausted 1))
            ⟨⟨#[1], 0, 1, 1⟩, Source.ofStream [], Sink.newBuffer⟩) ∧
      (execute 2 { tapeSize := .number 1 } ⟨[.increment, .input].toArray, .empty⟩
          (Source.ofStream []) Sink.newBuffer).stop? { tapeSize := .number 1 } =
        some ⟨.fault (.inputExhausted 1), some ⟨.number 1, 0, 1, 1, [(0, 1)]⟩⟩ := by
  have hreached : Machine.Reached { tapeSize := .number 1 }
      ⟨[.increment, .input].toArray, .empty⟩ (Source.ofStream []) Sink.newBuffer 1
      ⟨⟨#[1], 0, 1, 1⟩, Source.ofStream [], Sink.newBuffer⟩ :=
    ⟨_, rfl, rfl⟩
  have hconfig : Config.ofFields (some (.int 1)) none none =
      .ok { tapeSize := .number 1 } := rfl
  have hresolve : Loop.resolve [.increment, .input] = .ok .empty := rfl
  have hsites := execute_fault_sites hconfig hresolve ⟨[], rfl⟩ hreached (by decide)
  have hbudget : Config.Affords { tapeSize := .number 1 } 1 := by
    intro limit hlimit
    cases hlimit
  have hstrikes : Fault.Strikes { tapeSize := .number 1 } [.increment, .input]
      ⟨⟨#[1], 0, 1, 1⟩, Source.ofStream [], Sink.newBuffer⟩ (.inputExhausted 1) :=
    .inputEnd hbudget ⟨1, rfl, rfl⟩ rfl rfl
  exact ⟨hconfig, hresolve, hreached, (hsites.1 (.inputExhausted 1)).2 hstrikes,
    (hsites.2.2 _ hstrikes 2 (by decide)).2.1⟩

end Execute

end TapeLang
