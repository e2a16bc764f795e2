import Mathlib.Tactic
import Mathlib.Data.Fintype.Pigeonhole
import TapeLang.Proofs.Representations
import TapeLang.Proofs.StepBudget
import TapeLang.Proofs.UnreadInput

/-!
# Runs that repeat themselves

**Input.** Accepted code with its table, a tape of at least one cell, bytes in
memory and a sink of the library.
**Algorithm.** A configuration is all of a machine on which its next step depends
if there is no step budget: the tape, the pointer, the next instruction and the
source.  A run meets only finitely many of them.
**Results.** `Machine.step_configuration` says that a step goes from configuration
to configuration, whatever was counted or written before.  So a run that meets a
configuration twice never ends.  `Machine.Reached.source_of_read`: what a source
keeps when it is read, it keeps along a run.  `execute_bounded_halting`: a run that is not at
its end after as many steps as there are configurations has met one of them twice.
-/

namespace TapeLang

universe u v

variable {σ : Type u} {τ : Type v}

/-- What the next step of a machine without a step budget depends on. -/
structure Configuration (σ : Type u) where
  cells : Array UInt8
  pointer : Int
  pc : Int
  source : σ

/-- The configuration of a machine. -/
def Machine.configuration (m : Machine σ τ) : Configuration σ :=
  { cells := m.state.cells
    pointer := m.state.pointer
    pc := m.state.pc
    source := m.source }

/-- The configuration of a machine that can go on. -/
def Progress.configuration? : Progress σ τ → Option (Configuration σ)
  | .running m => some m.configuration
  | _ => none

/-- No sink of a type refuses a byte. -/
def ByteSink.TakesBytes (τ : Type v) [ByteSink τ] : Prop :=
  ∀ (sink : τ) (b : UInt8), ByteSink.refusal? sink b.toNat = none

theorem Progress.isRunning_eq_of_configuration? {p q : Progress σ τ}
    (h : p.configuration? = q.configuration?) : p.isRunning = q.isRunning := by
  cases p <;> cases q <;> first | rfl | cases h

namespace Machine

/-- The same configuration with another counter and another sink. -/
def recount (steps : Int) (sink : τ) (m : Machine σ τ) : Machine σ τ :=
  { state := { m.state with steps := steps }, source := m.source, sink := sink }

theorem eq_recount {m other : Machine σ τ} (h : other.configuration = m.configuration) :
    other = m.recount other.state.steps other.sink := by
  obtain ⟨⟨cells, pointer, pc, steps⟩, source, sink⟩ := m
  obtain ⟨⟨cells', pointer', pc', steps'⟩, source', sink'⟩ := other
  cases h
  rfl

section Step

variable (m : Machine σ τ) (steps : Int) (sink : τ)

theorem address?_recount :
    (m.recount steps sink).state.address? = m.state.address? :=
  rfl

theorem cell?_recount : (m.recount steps sink).state.cell? = m.state.cell? :=
  rfl

theorem pc_recount : (m.recount steps sink).state.pc = m.state.pc :=
  rfl

theorem store_recount (value : Int) :
    ((m.recount steps sink).store value).configuration? = (m.store value).configuration? := by
  simp only [store, address?_recount]
  cases m.state.address? with
  | none => rfl
  | some a => rfl

theorem add_recount (value : Int) :
    ((m.recount steps sink).add value).configuration? = (m.add value).configuration? := by
  simp only [add, address?_recount]
  cases m.state.address? with
  | none => rfl
  | some a => rfl

theorem moveRight_recount (config : Config) :
    ((m.recount steps sink).moveRight config).configuration? =
      (m.moveRight config).configuration? := by
  have hpointer : (m.recount steps sink).state.pointer = m.state.pointer := rfl
  rw [moveRight, moveRight]
  by_cases h : config.tapeSize.value ≤ m.state.pointer + 1
  · rw [if_pos h, if_pos (by rwa [hpointer])]
    rfl
  · rw [if_neg h, if_neg (by rwa [hpointer])]
    rfl

theorem moveLeft_recount (config : Config) :
    ((m.recount steps sink).moveLeft config).configuration? =
      (m.moveLeft config).configuration? := by
  have hpointer : (m.recount steps sink).state.pointer = m.state.pointer := rfl
  rw [moveLeft, moveLeft]
  by_cases h : m.state.pointer = 0
  · rw [if_pos h, if_pos (by rwa [hpointer])]
    rfl
  · rw [if_neg h, if_neg (by rwa [hpointer])]
    rfl

theorem bracket_recount (jumps : JumpTable) (test : UInt8 → Bool) :
    ((m.recount steps sink).bracket jumps test).configuration? =
      (m.bracket jumps test).configuration? := by
  simp only [bracket, cell?_recount]
  cases m.state.cell? with
  | none => rfl
  | some value =>
      simp only [jump, pc_recount]
      split
      · cases jumps.target? m.state.pc with
        | none => rfl
        | some target => rfl
      · rfl

theorem read_recount [ByteSource σ] (config : Config) :
    ((m.recount steps sink).read config).configuration? =
      (m.read config).configuration? := by
  rw [read, read, show (m.recount steps sink).source = m.source from rfl]
  obtain ⟨value, rest⟩ := ByteSource.read m.source
  cases value with
  | some value => exact store_recount { m with source := rest } steps sink value
  | none =>
      cases config.eof with
      | error => rfl
      | zero => exact store_recount { m with source := rest } steps sink 0
      | unchanged => rfl

theorem write_recount [ByteSink τ] (htakes : ByteSink.TakesBytes τ) :
    (m.recount steps sink).write.configuration? = m.write.configuration? := by
  simp only [write, cell?_recount]
  cases m.state.cell? with
  | none => rfl
  | some value =>
      simp only [htakes _ value]
      rfl

variable [ByteSource σ] [ByteSink τ]

theorem dispatch_recount (htakes : ByteSink.TakesBytes τ) (config : Config)
    (jumps : JumpTable) (x : Instruction) :
    ((m.recount steps sink).dispatch config jumps x).configuration? =
      (m.dispatch config jumps x).configuration? := by
  cases x with
  | moveRight => exact m.moveRight_recount steps sink config
  | moveLeft => exact m.moveLeft_recount steps sink config
  | increment => exact m.add_recount steps sink 1
  | decrement => exact m.add_recount steps sink (-1)
  | output => exact m.write_recount steps sink htakes
  | input => exact m.read_recount steps sink config
  | loopOpen => exact m.bracket_recount steps sink jumps _
  | loopClose => exact m.bracket_recount steps sink jumps _

end Step

section Run

variable [ByteSource σ] [ByteSink τ] {config : Config} {program : Program}
variable (htakes : ByteSink.TakesBytes τ) (hbudget : config.maxSteps = none)
include htakes hbudget

/-- Without a step budget, equal configurations have equal configurations next. -/
theorem step_configuration {m other : Machine σ τ}
    (h : other.configuration = m.configuration) (program : Program) :
    (other.step config program).configuration? = (m.step config program).configuration? := by
  have hspent : ∀ steps, config.spent? steps = none := by
    intro steps
    rw [Config.spent?, hbudget]
    rfl
  rw [eq_recount h, step, step]
  simp only [pc_recount, hspent]
  by_cases hpc : m.state.pc < program.length
  · rw [if_pos hpc, if_pos hpc]
    cases program.fetch? m.state.pc with
    | none => rfl
    | some x => exact dispatch_recount m _ _ htakes config program.jumps x
  · rw [if_neg hpc, if_neg hpc]
    rfl

/-- Runs from equal configurations come to equal configurations. -/
theorem run_configuration {m other : Machine σ τ}
    (h : other.configuration = m.configuration) (n : Nat) :
    (other.run config program n).configuration? =
      (m.run config program n).configuration? := by
  induction n generalizing m other with
  | zero => exact congrArg some h
  | succ n ih =>
      have hstep := step_configuration htakes hbudget h program
      rw [run_succ, run_succ]
      cases hother : other.step config program with
      | running next' =>
          cases hm : m.step config program with
          | running next =>
              rw [hother, hm] at hstep
              exact ih (Option.some.inj hstep)
          | halted last
          | failed why last =>
              rw [hother, hm] at hstep
              cases hstep
      | halted last'
      | failed why' last' =>
          cases hm : m.step config program with
          | running next =>
              rw [hother, hm] at hstep
              cases hstep
          | halted last
          | failed why last => rfl

/-- A run that comes back to its configuration never ends. -/
theorem run_isRunning_of_repeats {m other : Machine σ τ} {period : Nat} (hperiod : 0 < period)
    (hrun : m.run config program period = .running other)
    (h : other.configuration = m.configuration) (n : Nat) :
    (m.run config program n).isRunning = true := by
  induction n using Nat.strong_induction_on with
  | _ n ih =>
      rcases Nat.lt_or_ge period n with hlt | hge
      · obtain ⟨rest, rfl⟩ := Nat.exists_eq_add_of_le hlt.le
        rw [run_add_of_running hrun, Progress.isRunning_eq_of_configuration?
          (run_configuration htakes hbudget h rest)]
        exact ih rest (by omega)
      · obtain ⟨before, hbefore⟩ := exists_running_of_le hge (by rw [hrun]; rfl)
        rw [hbefore]
        rfl

end Run

end Machine

section Input

variable [ByteSink τ] {d : List UInt8} {config : Config} {program : Program}

/-- The source has served a first part of the bytes `d`, and holds the rest. -/
def Source.Serves (d : List UInt8) (source : Source) : Prop :=
  ∃ position ≤ d.length, source = .memory position (d.drop position)

theorem Source.Serves.read {source : Source} (h : source.Serves d) :
    (ByteSource.read source).2.Serves d := by
  obtain ⟨position, hle, rfl⟩ := h
  rcases Nat.lt_or_ge position d.length with hlt | hge
  · refine ⟨position + 1, hlt, ?_⟩
    rw [List.drop_eq_getElem_cons hlt]
    rfl
  · refine ⟨position, hle, ?_⟩
    rw [List.drop_eq_nil_of_le hge]
    rfl

namespace Machine

omit [ByteSink τ] in
theorem source_read (m : Machine Source τ) :
    (m.read config).machine.source = (ByteSource.read m.source).2 := by
  rw [read]
  obtain ⟨value, rest⟩ := ByteSource.read m.source
  cases value with
  | some value => exact source_store { m with source := rest } value
  | none =>
      cases config.eof with
      | error => rfl
      | zero => exact source_store { m with source := rest } 0
      | unchanged => rfl

/-- What a source keeps when it is read, a step keeps. -/
theorem source_step {P : Source → Prop}
    (hread : ∀ source, P source → P (ByteSource.read source).2) {m : Machine Source τ}
    (h : P m.source) :
    P (m.step config program).machine.source := by
  by_cases hreads : m.state.Reads config program
  · rw [step_of_reads m hreads, source_read]
    exact hread _ h
  · rw [(step_of_not_reads m hreads).1]
    exact h

/-- What a source keeps when it is read holds of it wherever a run goes. -/
theorem Reached.source_of_read {P : Source → Prop}
    (hread : ∀ source, P source → P (ByteSource.read source).2) {source : Source} {sink : τ}
    {k : Nat} {m : Machine Source τ} (hsource : P source)
    (h : Reached config program source sink k m) :
    P m.source := by
  refine h.induction (P := fun m => P m.source) ?_ ?_
  · intro start hboot
    rcases boot_cases config source sink with ⟨why, s, hfailed⟩ | ⟨s, hrunning, -⟩
    · rw [hfailed] at hboot
      cases hboot
    · rw [hrunning] at hboot
      cases hboot
      exact hsource
  · intro n before next _ hbefore hstep
    have hkept : P (before.step config program).machine.source := source_step hread hbefore
    rw [hstep] at hkept
    exact hkept

theorem Reached.serves {sink : τ} {k : Nat} {m : Machine Source τ}
    (h : Reached config program (Source.ofBytes d) sink k m) :
    m.source.Serves d :=
  h.source_of_read (P := Source.Serves d) (fun _ hserves => hserves.read)
    ⟨0, Nat.zero_le _, rfl⟩

end Machine

end Input

section Slots

variable {length size : Nat}

/-- The configurations of code of `length` instructions on `size` cells and `count`
bytes of input: next instruction, pointer, cells, and how many bytes were read. -/
abbrev Slot (length size count : Nat) :=
  Fin length × Fin size × (Fin size → Fin 256) × Fin (count + 1)

/-- The configuration that a slot stands for. -/
def Slot.configuration (d : List UInt8) : Slot length size d.length → Configuration Source
  | (pc, pointer, cells, position) =>
      { cells := (Vector.ofFn fun a => UInt8.ofFin (cells a)).toArray
        pointer := pointer.val
        pc := pc.val
        source := .memory position.val (d.drop position.val) }

theorem card_slot (length size count : Nat) :
    Fintype.card (Slot length size count) = length * size * 256 ^ size * (count + 1) := by
  simp [mul_assoc]

end Slots

namespace Machine

section Reached

variable [ByteSink τ] {size : Nat} {code : List Instruction} {jumps : JumpTable}
variable {config : Config} {d : List UInt8} {sink : τ} {k : Nat} {m : Machine Source τ}

/-- A run of accepted code without a step budget is on track. -/
theorem Reached.onTrack_free (hresolve : Loop.resolve code = .ok jumps)
    (hsize : config.tapeSize.value = size) (hpos : 0 < size)
    (hbudget : config.maxSteps = none)
    (h : Reached config ⟨code.toArray, jumps⟩ (Source.ofBytes d) sink k m) :
    OnTrack config size sink m := by
  refine h.onTrack hsize hpos ?_ ?_
  · simp [hbudget]
  · intro i target htarget
    have := Loop.nonneg_of_resolve hresolve htarget
    omega

/-- It meets no configurations but those of the slots, as long as it is in the code. -/
theorem Reached.exists_slot (hresolve : Loop.resolve code = .ok jumps)
    (hsize : config.tapeSize.value = size) (hpos : 0 < size)
    (hbudget : config.maxSteps = none)
    (h : Reached config ⟨code.toArray, jumps⟩ (Source.ofBytes d) sink k m)
    (hpc : m.state.pc < code.length) :
    ∃ slot : Slot code.length size d.length, m.configuration = slot.configuration d := by
  obtain ⟨position, hposition, hsource⟩ := h.serves
  obtain ⟨s, pc, steps, rfl⟩ := (h.onTrack_free hresolve hsize hpos hbudget).placed
  rw [Store.pc_machine] at hpc
  refine ⟨(⟨pc, by omega⟩, s.pointer, fun a => s.cells[a].toFin, ⟨position, by omega⟩), ?_⟩
  rw [configuration, hsource]
  simp [Slot.configuration, Store.machine]

/-- More machines on the way than there are slots: two of them have one configuration. -/
theorem exists_repeat (hresolve : Loop.resolve code = .ok jumps)
    (hsize : config.tapeSize.value = size) (hpos : 0 < size)
    (hbudget : config.maxSteps = none) {bound : Nat}
    (hbound : bound = code.length * size * 256 ^ size * (d.length + 1))
    (hall : ∀ i ≤ bound, ∃ m, Reached config ⟨code.toArray, jumps⟩ (Source.ofBytes d) sink i m ∧
      m.state.pc < code.length) :
    ∃ (i j : Nat) (m other : Machine Source τ), i < j ∧ j ≤ bound ∧
      Reached config ⟨code.toArray, jumps⟩ (Source.ofBytes d) sink i m ∧
      Reached config ⟨code.toArray, jumps⟩ (Source.ofBytes d) sink j other ∧
      other.configuration = m.configuration := by
  have hslots : ∀ i : Fin (bound + 1), ∃ (m : Machine Source τ)
      (slot : Slot code.length size d.length),
      Reached config ⟨code.toArray, jumps⟩ (Source.ofBytes d) sink i m ∧
        m.configuration = slot.configuration d := by
    intro i
    obtain ⟨m, hm, hpc⟩ := hall i (Nat.le_of_lt_succ i.isLt)
    obtain ⟨slot, hslot⟩ := hm.exists_slot hresolve hsize hpos hbudget hpc
    exact ⟨m, slot, hm, hslot⟩
  choose visited slot hvisited hslot using hslots
  have hcard : Fintype.card (Slot code.length size d.length) <
      Fintype.card (Fin (bound + 1)) := by
    rw [card_slot, Fintype.card_fin]
    omega
  obtain ⟨i, j, hne, hij⟩ := Fintype.exists_ne_map_eq_of_card_lt slot hcard
  have hsame : (visited j).configuration = (visited i).configuration := by
    rw [hslot, hslot, hij]
  rcases Nat.lt_or_gt_of_ne (Fin.val_ne_of_ne hne) with hlt | hgt
  · exact ⟨i, j, _, _, hlt, by omega, hvisited i, hvisited j, hsame⟩
  · exact ⟨j, i, _, _, hgt, by omega, hvisited j, hvisited i, hsame.symm⟩

end Reached

section Repeats

variable [ByteSource σ] [ByteSink τ] {config : Config} {program : Program} {source : σ}
variable {sink : τ}

/-- A run that meets a configuration twice goes on for ever. -/
theorem Reached.of_repeat (htakes : ByteSink.TakesBytes τ) (hbudget : config.maxSteps = none)
    {i j : Nat} {m other : Machine σ τ} (hij : i < j)
    (hi : Reached config program source sink i m)
    (hj : Reached config program source sink j other)
    (hsame : other.configuration = m.configuration) (n : Nat) :
    ∃ last, Reached config program source sink n last := by
  obtain ⟨start, hboot, hrun⟩ := hi
  obtain ⟨start', hboot', hrun'⟩ := hj
  obtain rfl : start = start' := Progress.running.inj (hboot.symm.trans hboot')
  obtain ⟨period, rfl⟩ := Nat.exists_eq_add_of_lt hij
  rw [Nat.add_assoc, run_add_of_running hrun] at hrun'
  have hlater : (start.run config program (i + n)).isRunning = true := by
    rw [run_add_of_running hrun]
    exact run_isRunning_of_repeats htakes hbudget (Nat.succ_pos period) hrun' hsame n
  obtain ⟨last, hlast⟩ := exists_running_of_le (Nat.le_add_left n i) hlater
  exact ⟨last, start, hboot, hlast⟩

end Repeats

section Lasting

variable [ByteSource σ] [ByteSink τ] {config : Config} {program : Program}
variable {start : Machine σ τ}

/-- After a number of steps without a budget there are instructions left. -/
def Lasts (config : Config) (program : Program) (start : Machine σ τ) (n : Nat) : Prop :=
  ∃ m, start.run (config.withBudget none) program n = .running m ∧
    m.state.pc < program.length

/-- A run that lasts for some steps lasts for fewer. -/
theorem Lasts.of_le {n k : Nat} (h : start.Lasts config program n) (hk : k ≤ n) :
    start.Lasts config program k := by
  obtain ⟨m, hrun, hpc⟩ := h
  rcases Nat.eq_or_lt_of_le hk with rfl | hlt
  · exact ⟨m, hrun, hpc⟩
  · obtain ⟨next, hnext⟩ := exists_running_of_le hlt (by rw [hrun]; rfl)
    obtain ⟨before, hbefore, hstep⟩ := exists_step_of_run_succ hnext
    exact ⟨before, hbefore, pc_lt_of_step_running hstep⟩

variable (hstart : start.state.steps = 0)
include hstart

/-- A run that does not last has ended with as many instructions at most. -/
theorem exists_end_of_not_lasts {bound : Nat} (h : ¬ start.Lasts config program bound) :
    ∃ p : Progress σ τ, p.isRunning = false ∧ p.dispatched ≤ bound ∧
      ∀ n, bound < n → start.run (config.withBudget none) program n = p := by
  have hlater : ∀ {p : Progress σ τ} {n : Nat}, p.isRunning = false → n ≤ bound + 1 →
      start.run (config.withBudget none) program n = p →
      ∀ more, bound < more → start.run (config.withBudget none) program more = p := by
    rintro p n hended hn rfl more hmore
    exact run_eq_of_ended (by omega) hended
  cases hrun : start.run (config.withBudget none) program bound with
  | running m =>
      have hsteps := run_steps hrun
      have hhalt : start.run (config.withBudget none) program (bound + 1) = .halted m := by
        rw [run_add_of_running hrun, run_succ, step_of_length_le]
        · rfl
        · by_contra hpc
          exact h ⟨m, hrun, by omega⟩
      exact ⟨.halted m, rfl, show m.state.steps ≤ bound by omega,
        hlater rfl le_rfl hhalt⟩
  | halted m =>
      have hlt : m.state.steps < bound := steps_lt_of_run_ended hstart hrun rfl
      exact ⟨.halted m, rfl, show m.state.steps ≤ bound by omega,
        hlater rfl (Nat.le_succ _) hrun⟩
  | failed why m =>
      have hlt : m.state.steps < bound := steps_lt_of_run_ended hstart hrun rfl
      have hdispatched := Progress.dispatched_failed_le why m
      exact ⟨.failed why m, rfl, by omega, hlater rfl (Nat.le_succ _) hrun⟩

/-- A budget that is found spent was spent by a run that lasts. -/
theorem lasts_of_stepLimit {limit : Setting} {pc : Int} {m : Machine σ τ}
    (hfree : ∀ n limit pc last, start.run (config.withBudget none) program n ≠
      .failed (.fault (.stepLimitExceeded limit pc)) last)
    (h : start.run (config.withBudget (some limit)) program (limit.value.toNat + 1) =
      .failed (.fault (.stepLimitExceeded limit pc)) m) :
    start.Lasts config program limit.value.toNat := by
  rw [run_limited_eq hstart] at h
  cases hrun : start.run (config.withBudget none) program limit.value.toNat with
  | running last =>
      rw [hrun, Progress.andThen_running] at h
      split at h
      · next hpc => exact ⟨last, hrun, hpc⟩
      · cases h
  | halted last =>
      rw [hrun] at h
      cases h
  | failed why last =>
      rw [hrun] at h
      cases h
      exact absurd hrun (hfree _ _ _ _)

/-- A run that lasts until a budget is spent finds it spent. -/
theorem stepLimit_of_lasts {limit : Setting}
    (h : start.Lasts config program limit.value.toNat) :
    ∃ pc m, start.run (config.withBudget (some limit)) program (limit.value.toNat + 1) =
      .failed (.fault (.stepLimitExceeded limit pc)) m := by
  obtain ⟨m, hrun, hpc⟩ := h
  refine ⟨m.state.pc, m, ?_⟩
  rw [run_limited_eq hstart, hrun, Progress.andThen_running, if_pos hpc]

end Lasting

end Machine

section Execute

theorem takesBytes_sink : ByteSink.TakesBytes Sink :=
  fun _ b => Sink.refusal?_of_isByte (isByte_toNat b)

section Start

variable {size : Nat} {code : List Instruction} {jumps : JumpTable} {config : Config}
variable {d : List UInt8} {sink : Sink} {start : Machine Source Sink}
variable (hresolve : Loop.resolve code = .ok jumps) (hpos : 0 < size)
variable (hsize : config.tapeSize.value = size)
variable (hboot : Machine.boot config (Source.ofBytes d) sink = .running start)
include hresolve hpos hsize hboot

/-- Without a budget, a run never finds its budget spent. -/
theorem run_free_ne_stepLimit (n : Nat) (limit : Setting) (pc : Int)
    (last : Machine Source Sink) :
    start.run (config.withBudget none) ⟨code.toArray, jumps⟩ n ≠
      .failed (.fault (.stepLimitExceeded limit pc)) last := by
  intro h
  have hfree : (config.withBudget none).tapeSize.value = size := hsize
  obtain ⟨k, -, before, hrun, hstep⟩ := Machine.exists_last_step h rfl
  have hreached : Machine.Reached (config.withBudget none) ⟨code.toArray, jumps⟩
      (Source.ofBytes d) sink k before := ⟨start, hboot, hrun⟩
  have hexpected := (hreached.onTrack_free hresolve hfree hpos rfl).step_failed hfree
    (fun _ _ hbyte => Sink.refusal?_of_isByte hbyte) hstep
  generalize hwhy : Failure.fault (.stepLimitExceeded limit pc) = why at hexpected
  cases hexpected with
  | stepLimit hlimit _ => cases hlimit
  | pointer _ => cases hwhy
  | input _ => cases hwhy
  | missingJump _ _ => cases hwhy

/-- A run that lasts for as many steps as there are configurations has met one of them
twice, and lasts for ever. -/
theorem exists_repeat_of_lasts {bound : Nat}
    (hbound : bound = code.length * size * 256 ^ size * (d.length + 1))
    (h : start.Lasts config ⟨code.toArray, jumps⟩ bound) :
    (∃ (i j : Nat) (m other : Machine Source Sink), i < j ∧ j ≤ bound ∧
      Machine.Reached (config.withBudget none) ⟨code.toArray, jumps⟩ (Source.ofBytes d)
        sink i m ∧
      Machine.Reached (config.withBudget none) ⟨code.toArray, jumps⟩ (Source.ofBytes d)
        sink j other ∧
      other.configuration = m.configuration) ∧
      ∀ n, start.Lasts config ⟨code.toArray, jumps⟩ n := by
  have hlength : (Program.mk code.toArray jumps).length = code.length := by
    simp [Program.length]
  have hall : ∀ i ≤ bound, ∃ m, Machine.Reached (config.withBudget none)
      ⟨code.toArray, jumps⟩ (Source.ofBytes d) sink i m ∧ m.state.pc < code.length := by
    intro i hi
    obtain ⟨m, hrun, hpc⟩ := h.of_le hi
    exact ⟨m, ⟨start, hboot, hrun⟩, by omega⟩
  have hfree : (config.withBudget none).tapeSize.value = size := hsize
  have hrepeat := Machine.exists_repeat hresolve hfree hpos rfl hbound hall
  refine ⟨hrepeat, fun n => ?_⟩
  obtain ⟨i, j, m, other, hij, -, hi, hj, hsame⟩ := hrepeat
  obtain ⟨next, start', hboot', hnext⟩ :=
    Machine.Reached.of_repeat takesBytes_sink rfl hij hi hj hsame (n + 1)
  obtain rfl : start = start' := Progress.running.inj (hboot.symm.trans hboot')
  obtain ⟨before, hbefore, hstep⟩ := Machine.exists_step_of_run_succ hnext
  exact ⟨before, hbefore, Machine.pc_lt_of_step_running hstep⟩

end Start

/-- **Bounded halting.**  Accepted code with a given tape and input has no more
configurations than `bound`.  If a budget of that many steps is found spent, so is
every other; and without a budget, a run ends with that many instructions at most, or
meets a configuration twice and never ends. -/
theorem execute_bounded_halting {code : List Instruction} {jumps : JumpTable}
    (hresolve : Loop.resolve code = .ok jumps) (hcode : 1 ≤ code.length) {size : Nat}
    (hpos : 1 ≤ size) {config : Config} (hsize : config.tapeSize.value = size)
    (d : List UInt8) (sink : Sink) {bound : Nat}
    (hbound : bound = code.length * size * 256 ^ size * (d.length + 1)) :
    (∀ patience pc m,
      execute patience (config.withBudget (some (.number bound))) ⟨code.toArray, jumps⟩
          (Source.ofBytes d) sink =
        .failed (.fault (.stepLimitExceeded (.number bound) pc)) m →
      ∀ (limit : Setting) (patience : Nat), ∃ pc m,
        execute patience (config.withBudget (some limit)) ⟨code.toArray, jumps⟩
            (Source.ofBytes d) sink =
          .failed (.fault (.stepLimitExceeded limit pc)) m)
      ∧
    ((∃ p : Progress Source Sink, p.isRunning = false ∧ p.dispatched ≤ bound ∧
        ∀ patience, bound < patience →
          execute patience (config.withBudget none) ⟨code.toArray, jumps⟩
            (Source.ofBytes d) sink = p)
      ∨
    ((∃ (i j : Nat) (m other : Machine Source Sink), i < j ∧ j ≤ bound ∧
        Machine.Reached (config.withBudget none) ⟨code.toArray, jumps⟩ (Source.ofBytes d)
          sink i m ∧
        Machine.Reached (config.withBudget none) ⟨code.toArray, jumps⟩ (Source.ofBytes d)
          sink j other ∧
        other.configuration = m.configuration) ∧
      ∀ patience,
        (execute patience (config.withBudget none) ⟨code.toArray, jumps⟩
          (Source.ofBytes d) sink).isRunning = true)) := by
  cases hfits : tapeBreakdown? size with
  | some why =>
      have hbroken : ∀ patience budget,
          execute patience (config.withBudget budget) ⟨code.toArray, jumps⟩
              (Source.ofBytes d) sink =
            .failed (.breakdown why) ⟨State.blank 0, Source.ofBytes d, sink⟩ := by
        intro patience budget
        rw [execute, Machine.boot_withBudget, Machine.boot, hsize, hfits]
      have hone : 1 ≤ bound := by
        rw [hbound]
        exact Nat.mul_pos (Nat.mul_pos (Nat.mul_pos hcode hpos) (Nat.pow_pos (by decide)))
          (Nat.succ_pos _)
      refine ⟨fun patience pc m h => ?_, Or.inl ⟨_, ?_, ?_, fun patience _ =>
        hbroken patience none⟩⟩
      · rw [hbroken] at h
        cases h
      · rfl
      · show (0 : Int) + 1 ≤ bound
        omega
  | none =>
      obtain ⟨start, hboot⟩ : ∃ start,
          Machine.boot config (Source.ofBytes d) sink = .running start :=
        ⟨_, Store.boot_eq hsize hpos hfits (Source.ofBytes d) sink⟩
      have hstart := Machine.steps_of_boot hboot
      have hfree : ∀ n, execute n (config.withBudget none) ⟨code.toArray, jumps⟩
          (Source.ofBytes d) sink =
            start.run (config.withBudget none) ⟨code.toArray, jumps⟩ n :=
        fun n => execute_of_boot (by rw [Machine.boot_withBudget, hboot]) n
      have hlimited : ∀ limit n,
          execute n (config.withBudget (some limit)) ⟨code.toArray, jumps⟩
              (Source.ofBytes d) sink =
            start.run (config.withBudget (some limit)) ⟨code.toArray, jumps⟩
              (limit.value.toNat + 1) :=
        fun limit n => execute_of_boot (by rw [Machine.boot_withBudget, hboot]) n
      have hrepeats : start.Lasts config ⟨code.toArray, jumps⟩ bound → _ :=
        exists_repeat_of_lasts hresolve hpos hsize hboot hbound
      simp only [hfree, hlimited]
      constructor
      · intro patience pc m h limit _
        have hlasts := Machine.lasts_of_stepLimit hstart
          (run_free_ne_stepLimit hresolve hpos hsize hboot) h
        exact Machine.stepLimit_of_lasts hstart ((hrepeats hlasts).2 limit.value.toNat)
      · by_cases hlasts : start.Lasts config ⟨code.toArray, jumps⟩ bound
        · obtain ⟨hrepeat, hall⟩ := hrepeats hlasts
          refine Or.inr ⟨hrepeat, fun n => ?_⟩
          obtain ⟨m, hrun, -⟩ := hall n
          rw [hrun]
          rfl
        · exact Or.inl (Machine.exists_end_of_not_lasts hstart hlasts)

/-- The code `+[]` on one cell and no input has 768 configurations.  It spends a budget
of that many steps, and so every budget. -/
theorem execute_bounded_halting_idle :
    Loop.resolve [.increment, .loopOpen, .loopClose] = .ok (.ofPairs [(1, 2)]) ∧
      ∀ (limit : Setting) (patience : Nat), ∃ pc m,
        execute patience { tapeSize := .number 1, maxSteps := some limit }
            ⟨[.increment, .loopOpen, .loopClose].toArray, .ofPairs [(1, 2)]⟩
            (Source.ofBytes []) Sink.newBuffer =
          .failed (.fault (.stepLimitExceeded limit pc)) m := by
  have hresolve : Loop.resolve [.increment, .loopOpen, .loopClose] =
      .ok (.ofPairs [(1, 2)]) := rfl
  have hround : ∀ (n : Nat) (k : Int),
      Machine.run { tapeSize := .number 1 }
          ⟨[.increment, .loopOpen, .loopClose].toArray, .ofPairs [(1, 2)]⟩ n
          ⟨⟨#[1], 0, 2, k⟩, Source.ofBytes [], Sink.newBuffer⟩ =
        .running ⟨⟨#[1], 0, 2, k + n⟩, .ofBytes [], .newBuffer⟩ := by
    intro n
    induction n with
    | zero => simp
    | succ n ih =>
        intro k
        have hstep : Machine.step { tapeSize := .number 1 }
            ⟨[.increment, .loopOpen, .loopClose].toArray, .ofPairs [(1, 2)]⟩
            ⟨⟨#[1], 0, 2, k⟩, Source.ofBytes [], Sink.newBuffer⟩ =
              .running ⟨⟨#[1], 0, 2, k + 1⟩, .ofBytes [], .newBuffer⟩ := rfl
        rw [Machine.run_succ_of_running hstep, ih, Nat.cast_succ, add_comm (n : Int) 1,
          add_assoc]
  have hlasts : Machine.Lasts { tapeSize := .number 1 }
      ⟨[.increment, .loopOpen, .loopClose].toArray, .ofPairs [(1, 2)]⟩
      ⟨State.blank 1, Source.ofBytes [], Sink.newBuffer⟩
      (Setting.number 768).value.toNat :=
    ⟨_, (Machine.run_add_of_running (k := 2) rfl 766).trans (hround 766 2), by decide⟩
  obtain ⟨pc, m, hspent⟩ := Machine.stepLimit_of_lasts rfl hlasts
  have hsize : (Config.tapeSize { tapeSize := .number 1 }).value = (1 : Nat) := rfl
  exact ⟨hresolve, (execute_bounded_halting hresolve (by decide) le_rfl hsize []
    Sink.newBuffer rfl).1 0 pc m hspent⟩

end Execute

end TapeLang
