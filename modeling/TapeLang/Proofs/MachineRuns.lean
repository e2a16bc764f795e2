import Mathlib.Tactic
import TapeLang.Machine.Run

/-!
# Steps and runs of any machine

**Input.** A configuration, a program and a machine, none of them checked.
**Results.** `Machine.step_counts` says what every step does to the counter: one
that goes on counts one, and one that fails leaves the state alone.  By
`Machine.run_steps` the counter is the length of the run, and by
`Machine.exists_last_step` every end of a run is the outcome of one last step.
`Machine.Reached.unique`: a run reaches one machine after each number of steps.
-/

namespace TapeLang

universe u v

variable {σ : Type u} {τ : Type v}

/-- What carrying out an instruction may do to a state: it counts one step, or it
fails and leaves the state alone. -/
def Progress.Counts (s : State) : Progress σ τ → Prop
  | .running next => next.state.steps = s.steps + 1
  | .halted _ => False
  | .failed _ last => last.state = s

namespace Machine

section Moves

variable (m : Machine σ τ)

theorem moveRight_counts (config : Config) : (m.moveRight config).Counts m.state := by
  rw [moveRight]
  split
  · rfl
  · rfl

theorem moveLeft_counts (config : Config) : (m.moveLeft config).Counts m.state := by
  rw [moveLeft]
  split
  · rfl
  · rfl

theorem add_counts (value : Int) : (m.add value).Counts m.state := by
  rw [add]
  split
  · rfl
  · rfl

theorem store_counts (value : Int) : (m.store value).Counts m.state := by
  rw [store]
  split
  · rfl
  · rfl

theorem jump_counts (jumps : JumpTable) : (m.jump jumps).Counts m.state := by
  rw [jump]
  split
  · rfl
  · rfl

theorem bracket_counts (jumps : JumpTable) (test : UInt8 → Bool) :
    (m.bracket jumps test).Counts m.state := by
  rw [bracket]
  split
  · rfl
  · split
    · exact m.jump_counts jumps
    · rfl

theorem write_counts [ByteSink τ] : m.write.Counts m.state := by
  rw [write]
  split
  · rfl
  · split
    · rfl
    · rfl

theorem read_counts [ByteSource σ] (config : Config) : (m.read config).Counts m.state := by
  rw [read]
  split
  · next value rest _ => exact store_counts { m with source := rest } value
  · next rest _ =>
      cases config.eof with
      | error => rfl
      | zero => exact store_counts { m with source := rest } 0
      | unchanged => rfl

end Moves

variable [ByteSource σ] [ByteSink τ] {config : Config} {program : Program}

theorem dispatch_counts (jumps : JumpTable) (m : Machine σ τ) (x : Instruction) :
    (m.dispatch config jumps x).Counts m.state := by
  cases x with
  | moveRight => exact m.moveRight_counts config
  | moveLeft => exact m.moveLeft_counts config
  | increment => exact m.add_counts 1
  | decrement => exact m.add_counts (-1)
  | output => exact m.write_counts
  | input => exact m.read_counts config
  | loopOpen => exact m.bracket_counts jumps _
  | loopClose => exact m.bracket_counts jumps _

/-- A step before the end of the code counts one or leaves the state alone. -/
theorem step_counts {m : Machine σ τ} (hpc : m.state.pc < program.length) :
    (m.step config program).Counts m.state := by
  rw [step, if_pos hpc]
  split
  · rfl
  · split
    · rfl
    · exact dispatch_counts _ m _

theorem step_of_length_le {m : Machine σ τ} (hpc : program.length ≤ m.state.pc) :
    m.step config program = .halted m := by
  rw [step, if_neg (by omega)]

/-- A machine halts past the end of the code, and nowhere else. -/
theorem step_eq_halted_iff {m last : Machine σ τ} :
    m.step config program = .halted last ↔
      program.length ≤ m.state.pc ∧ last = m := by
  constructor
  · intro h
    rcases Int.lt_or_le m.state.pc program.length with hlt | hle
    · have hcounts : (m.step config program).Counts m.state := step_counts hlt
      rw [h] at hcounts
      exact hcounts.elim
    · rw [step_of_length_le hle, Progress.halted.injEq] at h
      exact ⟨hle, h.symm⟩
  · rintro ⟨hle, rfl⟩
    exact step_of_length_le hle

/-- A step that does not halt counts one or leaves the state alone. -/
theorem counts_of_step {m : Machine σ τ} {p : Progress σ τ}
    (h : m.step config program = p) (hp : ∀ last, p ≠ .halted last) :
    p.Counts m.state := by
  rcases Int.lt_or_le m.state.pc program.length with hlt | hle
  · rw [← h]
    exact step_counts hlt
  · exact absurd (h.symm.trans (step_of_length_le hle)) (hp m)

theorem steps_of_step_running {m next : Machine σ τ}
    (h : m.step config program = .running next) :
    next.state.steps = m.state.steps + 1 :=
  counts_of_step h fun _ hlast => by cases hlast

/-- A step that goes on carried out an instruction of the code. -/
theorem pc_lt_of_step_running {m next : Machine σ τ}
    (h : m.step config program = .running next) :
    m.state.pc < program.length := by
  by_contra hpast
  rw [step_of_length_le (by omega)] at h
  cases h

theorem state_of_step_failed {m last : Machine σ τ} {why : Failure}
    (h : m.step config program = .failed why last) :
    last.state = m.state :=
  counts_of_step h fun _ hlast => by cases hlast

section Runs

theorem run_succ_of_running {m next : Machine σ τ}
    (h : m.step config program = .running next) (n : Nat) :
    m.run config program (n + 1) = next.run config program n := by
  rw [run_succ, h, Progress.andThen_running]

theorem run_add_of_running {m next : Machine σ τ} {k : Nat}
    (h : m.run config program k = .running next) (n : Nat) :
    m.run config program (k + n) = next.run config program n := by
  rw [run_add, h, Progress.andThen_running]

/-- A run that is still going was going before. -/
theorem exists_running_of_le {m : Machine σ τ} {k n : Nat} (hle : k ≤ n)
    (h : (m.run config program n).isRunning = true) :
    ∃ before, m.run config program k = .running before := by
  cases hk : m.run config program k with
  | running before => exact ⟨before, rfl⟩
  | halted last
  | failed why last =>
      rw [run_eq_of_ended hle (by rw [hk]; rfl), hk] at h
      cases h

/-- Two ends of one run are the same end. -/
theorem run_ended_unique {m : Machine σ τ} {a b : Nat} {p q : Progress σ τ}
    (ha : m.run config program a = p) (hp : p.isRunning = false)
    (hb : m.run config program b = q) (hq : q.isRunning = false) :
    p = q := by
  subst ha hb
  rcases Nat.le_total a b with hab | hba
  · exact (run_eq_of_ended hab hp).symm
  · exact run_eq_of_ended hba hq

/-- A run that is still going took its last step from a machine that it reached. -/
theorem exists_step_of_run_succ {m last : Machine σ τ} {k : Nat}
    (h : m.run config program (k + 1) = .running last) :
    ∃ before, m.run config program k = .running before ∧
      before.step config program = .running last := by
  rw [run_add] at h
  cases hrun : m.run config program k with
  | running before =>
      rw [hrun, Progress.andThen_running, run_succ] at h
      cases hstep : before.step config program with
      | running next =>
          rw [hstep] at h
          exact ⟨before, rfl, hstep.trans h⟩
      | halted next =>
          rw [hstep] at h
          cases h
      | failed why next =>
          rw [hstep] at h
          cases h
  | halted before =>
      rw [hrun] at h
      cases h
  | failed why before =>
      rw [hrun] at h
      cases h

/-- The counter of a machine that still runs has counted every step. -/
theorem run_steps {m last : Machine σ τ} {k : Nat}
    (h : m.run config program k = .running last) :
    last.state.steps = m.state.steps + k := by
  induction k generalizing last with
  | zero =>
      obtain rfl := Progress.running.inj h
      simp
  | succ k ih =>
      obtain ⟨before, hbefore, hstep⟩ := exists_step_of_run_succ h
      rw [steps_of_step_running hstep, ih hbefore]
      push_cast
      omega

/-- What every step keeps, a run keeps. -/
theorem run_invariant {P : Machine σ τ → Prop}
    (hstep : ∀ m next, P m → m.step config program = .running next → P next)
    {m last : Machine σ τ} {k : Nat} (hm : P m)
    (h : m.run config program k = .running last) :
    P last := by
  induction k generalizing last with
  | zero =>
      obtain rfl := Progress.running.inj h
      exact hm
  | succ k ih =>
      obtain ⟨before, hbefore, hlast⟩ := exists_step_of_run_succ h
      exact hstep before last (ih hbefore) hlast

/-- A run that has ended ended with one last step. -/
theorem exists_last_step {m : Machine σ τ} {fuel : Nat} {p : Progress σ τ}
    (h : m.run config program fuel = p) (hended : p.isRunning = false) :
    ∃ k < fuel, ∃ last, m.run config program k = .running last ∧
      last.step config program = p := by
  induction fuel generalizing m with
  | zero =>
      subst h
      cases hended
  | succ fuel ih =>
      cases hstep : m.step config program with
      | running next =>
          rw [run_succ_of_running hstep] at h
          obtain ⟨k, hk, last, hrun, hlast⟩ := ih h
          refine ⟨k + 1, by omega, last, ?_, hlast⟩
          rw [run_succ_of_running hstep]
          exact hrun
      | halted next =>
          rw [run_succ, hstep] at h
          exact ⟨0, by omega, m, rfl, hstep.trans h⟩
      | failed why next =>
          rw [run_succ, hstep] at h
          exact ⟨0, by omega, m, rfl, hstep.trans h⟩

/-- A run that has ended has the counter of its last step. -/
theorem run_ended_steps {m : Machine σ τ} {fuel : Nat} {p : Progress σ τ}
    (h : m.run config program fuel = p) (hended : p.isRunning = false) :
    ∃ k < fuel, p.machine.state.steps = m.state.steps + k ∧
      m.run config program (k + 1) = p := by
  obtain ⟨k, hk, last, hrun, hlast⟩ := exists_last_step h hended
  have hstate : p.machine.state = last.state := by
    cases p with
    | running next => cases hended
    | halted next => exact congrArg Machine.state (step_eq_halted_iff.1 hlast).2
    | failed why next => exact state_of_step_failed hlast
  refine ⟨k, hk, ?_, ?_⟩
  · rw [hstate, run_steps hrun]
  · rw [run_add_of_running hrun, run_succ, hlast]
    cases p with
    | running next => cases hended
    | halted next => rfl
    | failed why next => rfl

end Runs

end Machine

section Execute

variable {config : Config} {source : σ} {sink : τ} {m : Machine σ τ}

/-- The machine at the head of the loop after `k` steps of a run on a fresh tape. -/
def Machine.Reached [ByteSource σ] [ByteSink τ] (config : Config) (program : Program)
    (source : σ) (sink : τ) (k : Nat) (m : Machine σ τ) : Prop :=
  ∃ start, Machine.boot config source sink = .running start ∧
    start.run config program k = .running m

/-- A run begins with its counter at zero. -/
theorem Machine.steps_of_boot (hboot : Machine.boot config source sink = .running m) :
    m.state.steps = 0 := by
  rw [boot] at hboot
  split at hboot
  · cases hboot
  · obtain rfl := Progress.running.inj hboot
    rfl

theorem execute_of_boot [ByteSource σ] [ByteSink τ] {program : Program}
    (hboot : Machine.boot config source sink = .running m) (patience : Nat) :
    execute patience config program source sink =
      m.run config program (config.fuel patience) := by
  rw [execute, hboot]

/-- What holds at the start of a run and is kept by its steps holds wherever it goes. -/
theorem Machine.Reached.induction [ByteSource σ] [ByteSink τ] {program : Program} {k : Nat}
    {P : Machine σ τ → Prop}
    (hstart : ∀ start, Machine.boot config source sink = .running start → P start)
    (hstep : ∀ n before next, Machine.Reached config program source sink n before →
      P before → before.step config program = .running next → P next)
    (h : Machine.Reached config program source sink k m) :
    P m := by
  obtain ⟨start, hboot, hrun⟩ := h
  induction k generalizing m with
  | zero =>
      obtain rfl := Progress.running.inj hrun
      exact hstart _ hboot
  | succ k ih =>
      obtain ⟨before, hbefore, hlast⟩ := Machine.exists_step_of_run_succ hrun
      exact hstep k before m ⟨start, hboot, hbefore⟩ (ih hbefore) hlast

section Reached

variable [ByteSource σ] [ByteSink τ] {program : Program} {k : Nat}

/-- After a number of steps a run is in one machine only. -/
theorem Machine.Reached.unique {other : Machine σ τ}
    (h : Machine.Reached config program source sink k m)
    (hother : Machine.Reached config program source sink k other) :
    m = other := by
  obtain ⟨start, hboot, hrun⟩ := h
  obtain ⟨start', hboot', hrun'⟩ := hother
  obtain rfl := Progress.running.inj (hboot.symm.trans hboot')
  exact Progress.running.inj (hrun.symm.trans hrun')

/-- The counter of a machine that a run has reached is the length of the run. -/
theorem Machine.Reached.steps_eq (h : Machine.Reached config program source sink k m) :
    m.state.steps = k := by
  obtain ⟨start, hboot, hrun⟩ := h
  rw [Machine.run_steps hrun, Machine.steps_of_boot hboot, zero_add]

/-- A run goes on if and only if the step from where it is goes on. -/
theorem Machine.Reached.exists_succ_iff (h : Machine.Reached config program source sink k m) :
    (∃ next, Machine.Reached config program source sink (k + 1) next) ↔
      ∃ next, m.step config program = .running next := by
  constructor
  · rintro ⟨next, start, hboot, hrun⟩
    obtain ⟨before, hbefore, hstep⟩ := Machine.exists_step_of_run_succ hrun
    obtain rfl := h.unique ⟨start, hboot, hbefore⟩
    exact ⟨next, hstep⟩
  · rintro ⟨next, hstep⟩
    obtain ⟨start, hboot, hrun⟩ := h
    refine ⟨next, start, hboot, ?_⟩
    rw [Machine.run_add_of_running hrun, Machine.run_succ_of_running hstep, Machine.run_zero]

/-- Where a step ends a run, the run has that end if its fuel lasts for the step. -/
theorem Machine.Reached.execute_eq (h : Machine.Reached config program source sink k m)
    {p : Progress σ τ} (hstep : m.step config program = p) (hended : p.isRunning = false)
    {patience : Nat} (hfuel : k < config.fuel patience) :
    execute patience config program source sink = p := by
  obtain ⟨start, hboot, hrun⟩ := h
  have hlast : start.run config program (k + 1) = p := by
    rw [Machine.run_add_of_running hrun, Machine.run_succ, hstep]
    cases p with
    | running next => cases hended
    | halted next => rfl
    | failed why next => rfl
  rw [execute_of_boot hboot, ← hlast]
  exact Machine.run_eq_of_ended hfuel (by rw [hlast, hended])

/-- Patience for one more step, and a budget that is not overrun, are fuel for it. -/
theorem Machine.Reached.lt_fuel (h : Machine.Reached config program source sink k m)
    (hbudget : ∀ limit ∈ config.maxSteps, m.state.steps ≤ limit.value) {patience : Nat}
    (hpatience : k < patience) :
    k < config.fuel patience := by
  have hsteps := h.steps_eq
  rw [Config.fuel]
  cases hlimit : config.maxSteps with
  | none => exact hpatience
  | some limit =>
      have hle := hbudget limit hlimit
      show k < limit.value.toNat + 1
      omega

end Reached

/-- A run on a fresh tape that halts does so in a machine that it has reached. -/
theorem exists_reached_of_execute_halted [ByteSource σ] [ByteSink τ] {program : Program}
    {patience : Nat} (h : execute patience config program source sink = .halted m) :
    ∃ k, Machine.Reached config program source sink k m := by
  cases hboot : Machine.boot config source sink with
  | running start =>
      rw [execute_of_boot hboot] at h
      obtain ⟨k, -, last, hrun, hlast⟩ := Machine.exists_last_step h rfl
      obtain ⟨-, rfl⟩ := Machine.step_eq_halted_iff.1 hlast
      exact ⟨k, start, hboot, hrun⟩
  | halted last =>
      rw [Machine.boot] at hboot
      split at hboot
      · cases hboot
      · cases hboot
  | failed why last =>
      rw [execute, hboot] at h
      cases h

/-- A run on a fresh tape that fails does so in a step from a machine that it has
reached. -/
theorem exists_reached_of_execute_failed [ByteSource σ] [ByteSink τ] {program : Program}
    {start : Machine σ τ} (hboot : Machine.boot config source sink = .running start)
    {patience : Nat} {why : Failure}
    (h : execute patience config program source sink = .failed why m) :
    ∃ k last, Machine.Reached config program source sink k last ∧
      last.step config program = .failed why m := by
  rw [execute_of_boot hboot] at h
  obtain ⟨k, -, last, hrun, hlast⟩ := Machine.exists_last_step h rfl
  exact ⟨k, last, ⟨start, hboot, hrun⟩, hlast⟩

end Execute

end TapeLang
