import Mathlib.Tactic
import TapeLang.Proofs.MachineRuns

/-!
# Step budgets

**Input.** A configuration, a program with any jump table, a source, a sink and
a step budget, which may be zero or negative.
**Results.** `execute_withBudget`: a run with a budget is the run without one,
cut off once the budget is spent.  A run that halts exactly at the budget still
halts; one that would fail there finds the budget spent instead, since the
budget is checked first.
-/

namespace TapeLang

universe u v

variable {σ : Type u} {τ : Type v} [ByteSource σ] [ByteSink τ]

/-- The configuration with another step budget. -/
def Config.withBudget (config : Config) (budget : Option Setting) : Config :=
  { config with maxSteps := budget }

/-- At most how many instructions were dispatched: those that were completed, and
one that failed.  A spent budget is found before an instruction is dispatched. -/
def Progress.dispatched {σ : Type u} {τ : Type v} : Progress σ τ → Int
  | .failed (.fault (.stepLimitExceeded _ _)) m => m.state.steps
  | .failed _ m => m.state.steps + 1
  | .halted m => m.state.steps
  | .running m => m.state.steps

omit [ByteSource σ] [ByteSink τ] in
theorem Progress.dispatched_failed_le (why : Failure) (m : Machine σ τ) :
    (Progress.failed why m).dispatched ≤ m.state.steps + 1 := by
  cases why with
  | breakdown b => exact le_rfl
  | fault f =>
      cases f with
      | stepLimitExceeded limit pc => exact (Int.lt_add_one_of_le le_rfl).le
      | _ => exact le_rfl

namespace Machine

variable {config : Config} {program : Program} {limit : Setting}

section Step

omit [ByteSource σ] [ByteSink τ] in
theorem boot_withBudget (budget : Option Setting) (source : σ) (sink : τ) :
    boot (config.withBudget budget) source sink = boot config source sink :=
  rfl

/-- Instructions do not look at the budget. -/
theorem dispatch_withBudget (budget : Option Setting) (jumps : JumpTable)
    (m : Machine σ τ) (x : Instruction) :
    m.dispatch (config.withBudget budget) jumps x = m.dispatch config jumps x := by
  cases x <;> rfl

theorem step_withBudget_of_lt {m : Machine σ τ} (h : m.state.steps < limit.value) :
    m.step (config.withBudget (some limit)) program =
      m.step (config.withBudget none) program := by
  have hlimited : (config.withBudget (some limit)).spent? m.state.steps = none := by
    simp [Config.spent?, Config.withBudget, h]
  have hfree : (config.withBudget none).spent? m.state.steps = none := by
    simp [Config.spent?, Config.withBudget]
  simp only [step, hlimited, hfree, dispatch_withBudget]

/-- A spent budget is found wherever there is an instruction left. -/
theorem step_withBudget_of_le {m : Machine σ τ} (h : limit.value ≤ m.state.steps)
    (hpc : m.state.pc < program.length) :
    m.step (config.withBudget (some limit)) program =
      .failed (.fault (.stepLimitExceeded limit m.state.pc)) m := by
  have hspent : (config.withBudget (some limit)).spent? m.state.steps = some limit := by
    simp [Config.spent?, Config.withBudget, h]
  rw [step, if_pos hpc, hspent]
  rfl

end Step

section Run

/-- Until the budget is spent, a run does not notice it. -/
theorem run_withBudget {m : Machine σ τ} {k : Nat}
    (h : ∀ i < k, m.state.steps + (i : Int) < limit.value) :
    m.run (config.withBudget (some limit)) program k =
      m.run (config.withBudget none) program k := by
  induction k generalizing m with
  | zero => rfl
  | succ k ih =>
      have hfirst : m.state.steps < limit.value := by
        simpa using h 0 (Nat.succ_pos k)
      rw [run_succ, run_succ, step_withBudget_of_lt hfirst]
      cases hstep : m.step (config.withBudget none) program with
      | running next =>
          refine ih fun i hi => ?_
          have hsteps := steps_of_step_running hstep
          have hlater := h (i + 1) (by omega)
          push_cast at hlater
          omega
      | halted last => rfl
      | failed why last => rfl

variable {start : Machine σ τ} (hstart : start.state.steps = 0)
include hstart

/-- A run that has ended has counted fewer steps than it had fuel: the last one
does not count. -/
theorem steps_lt_of_run_ended {fuel : Nat} {p : Progress σ τ}
    (h : start.run config program fuel = p) (hended : p.isRunning = false) :
    p.machine.state.steps < fuel := by
  obtain ⟨k, hk, hsteps, -⟩ := run_ended_steps h hended
  omega

/-- The bounded run is the unbounded one up to the budget, and one more step,
which can only halt or find the budget spent. -/
theorem run_limited_eq :
    start.run (config.withBudget (some limit)) program (limit.value.toNat + 1) =
      (start.run (config.withBudget none) program limit.value.toNat).andThen
        fun m =>
          if m.state.pc < program.length then
            .failed (.fault (.stepLimitExceeded limit m.state.pc)) m
          else
            .halted m := by
  have hsame : start.run (config.withBudget (some limit)) program limit.value.toNat =
      start.run (config.withBudget none) program limit.value.toNat := by
    refine run_withBudget fun i hi => ?_
    omega
  rw [run_add, hsame]
  cases hrun : start.run (config.withBudget none) program limit.value.toNat with
  | halted last => rfl
  | failed why last => rfl
  | running m =>
      have hsteps := run_steps hrun
      rw [Progress.andThen_running, Progress.andThen_running, run_succ]
      split
      · next hpc =>
          rw [step_withBudget_of_le (by omega) hpc]
          rfl
      · next hpc =>
          rw [step_of_length_le (by omega)]
          rfl

/-- A halt up to the budget, the budget included, is reached. -/
theorem run_limited_of_halted {fuel : Nat} {final : Machine σ τ}
    (h : start.run (config.withBudget none) program fuel = .halted final)
    (hle : final.state.steps ≤ max limit.value 0) :
    start.run (config.withBudget (some limit)) program (limit.value.toNat + 1) =
      .halted final := by
  obtain ⟨k, -, last, hrun, hlast⟩ := exists_last_step h rfl
  obtain ⟨hpc, rfl⟩ := step_eq_halted_iff.1 hlast
  have hsteps := run_steps hrun
  rw [run_limited_eq hstart]
  rcases Nat.lt_or_ge k limit.value.toNat with hlt | hge
  · have hended : start.run (config.withBudget none) program (k + 1) = .halted final := by
      rw [run_add_of_running hrun, run_succ, hlast]
      rfl
    have hsame := run_eq_of_ended (Nat.succ_le_of_lt hlt) (by rw [hended]; rfl)
    rw [hsame, hended]
    rfl
  · obtain rfl : k = limit.value.toNat := by omega
    rw [hrun, Progress.andThen_running, if_neg (by omega)]

/-- A failure before the budget is spent is reached. -/
theorem run_limited_of_failed {fuel : Nat} {why : Failure} {final : Machine σ τ}
    (h : start.run (config.withBudget none) program fuel = .failed why final)
    (hlt : final.state.steps < max limit.value 0) :
    start.run (config.withBudget (some limit)) program (limit.value.toNat + 1) =
      .failed why final := by
  obtain ⟨k, -, hsteps, hrun⟩ := run_ended_steps h rfl
  have hk : final.state.steps = start.state.steps + k := hsteps
  have hsame := run_eq_of_ended (show k + 1 ≤ limit.value.toNat by omega)
    (by rw [hrun]; rfl)
  rw [run_limited_eq hstart, hsame, hrun]
  rfl

/-- In all other cases the budget is found spent, in the state that the unbounded
run has reached by then. -/
theorem run_limited_otherwise
    (hhalted : ∀ fuel final,
      start.run (config.withBudget none) program fuel = .halted final →
        max limit.value 0 < final.state.steps)
    (hfailed : ∀ fuel why final,
      start.run (config.withBudget none) program fuel = .failed why final →
        max limit.value 0 ≤ final.state.steps) :
    ∃ m, start.run (config.withBudget none) program limit.value.toNat = .running m ∧
      m.state.steps = max limit.value 0 ∧
      start.run (config.withBudget (some limit)) program (limit.value.toNat + 1) =
        .failed (.fault (.stepLimitExceeded limit m.state.pc)) m := by
  rw [run_limited_eq hstart]
  cases hrun : start.run (config.withBudget none) program limit.value.toNat with
  | halted final =>
      have hlt : final.state.steps < limit.value.toNat :=
        steps_lt_of_run_ended hstart hrun rfl
      have := hhalted _ _ hrun
      omega
  | failed why final =>
      have hlt : final.state.steps < limit.value.toNat :=
        steps_lt_of_run_ended hstart hrun rfl
      have := hfailed _ _ _ hrun
      omega
  | running m =>
      have hsteps := run_steps hrun
      refine ⟨m, rfl, by omega, ?_⟩
      rw [Progress.andThen_running, if_pos]
      by_contra hpc
      have hhalt : start.run (config.withBudget none) program (limit.value.toNat + 1) =
          .halted m := by
        rw [run_add_of_running hrun, run_succ, step_of_length_le (by omega)]
        rfl
      have := hhalted _ _ hhalt
      omega

/-- A bounded run ends, and dispatches no more instructions than its budget has. -/
theorem run_limited_dispatched :
    (start.run (config.withBudget (some limit)) program
        (limit.value.toNat + 1)).isRunning = false ∧
      (start.run (config.withBudget (some limit)) program
        (limit.value.toNat + 1)).dispatched ≤ max limit.value 0 := by
  rw [run_limited_eq hstart]
  cases hrun : start.run (config.withBudget none) program limit.value.toNat with
  | halted final =>
      have hlt : final.state.steps < limit.value.toNat :=
        steps_lt_of_run_ended hstart hrun rfl
      exact ⟨rfl, show final.state.steps ≤ max limit.value 0 by omega⟩
  | failed why final =>
      have hlt : final.state.steps < limit.value.toNat :=
        steps_lt_of_run_ended hstart hrun rfl
      have hdispatched := Progress.dispatched_failed_le why final
      exact ⟨rfl, show (Progress.failed why final).dispatched ≤ _ by omega⟩
  | running m =>
      have hsteps := run_steps hrun
      rw [Progress.andThen_running]
      split
      · exact ⟨rfl, show m.state.steps ≤ max limit.value 0 by omega⟩
      · exact ⟨rfl, show m.state.steps ≤ max limit.value 0 by omega⟩

end Run

end Machine

section Execute

variable (config : Config) (limit : Setting) (program : Program)
variable (source : σ) (sink : τ)

/-- **A step budget truncates.**  Without a tape no budget matters.  With one, the
bounded run ends after no more instructions than its budget has; it halts as the
unbounded run does if that halts up to the budget, fails as it does if that fails
before the budget is spent, and otherwise stops with the budget spent in the very
state that the unbounded run has then. -/
theorem execute_withBudget (patience : Nat) :
    (∀ why m, Machine.boot config source sink = .failed why m →
      ∀ budget,
        execute patience (config.withBudget budget) program source sink = .failed why m)
      ∧
    (∀ start, Machine.boot config source sink = .running start →
      ((execute patience (config.withBudget (some limit)) program source
            sink).isRunning = false ∧
        (execute patience (config.withBudget (some limit)) program source
            sink).dispatched ≤ max limit.value 0)
        ∧
      (∀ k final,
        execute k (config.withBudget none) program source sink = .halted final →
        final.state.steps ≤ max limit.value 0 →
        execute patience (config.withBudget (some limit)) program source sink =
          .halted final)
        ∧
      (∀ k why final,
        execute k (config.withBudget none) program source sink = .failed why final →
        final.state.steps < max limit.value 0 →
        execute patience (config.withBudget (some limit)) program source sink =
          .failed why final)
        ∧
      ((∀ k final,
          execute k (config.withBudget none) program source sink = .halted final →
          max limit.value 0 < final.state.steps) →
        (∀ k why final,
          execute k (config.withBudget none) program source sink = .failed why final →
          max limit.value 0 ≤ final.state.steps) →
        ∃ m,
          execute (max limit.value 0).toNat (config.withBudget none) program source
              sink = .running m ∧
            m.state.steps = max limit.value 0 ∧
            execute patience (config.withBudget (some limit)) program source sink =
              .failed (.fault (.stepLimitExceeded limit m.state.pc)) m)) := by
  constructor
  · intro why m hboot budget
    rw [execute, Machine.boot_withBudget, hboot]
  · intro start hboot
    have hstart := Machine.steps_of_boot hboot
    have hboots : ∀ budget,
        Machine.boot (config.withBudget budget) source sink = .running start := by
      intro budget
      rw [Machine.boot_withBudget, hboot]
    have hfree : ∀ k, execute k (config.withBudget none) program source sink =
        start.run (config.withBudget none) program k :=
      fun k => execute_of_boot (hboots none) k
    have hlimited : execute patience (config.withBudget (some limit)) program source sink =
        start.run (config.withBudget (some limit)) program (limit.value.toNat + 1) :=
      execute_of_boot (hboots (some limit)) patience
    have hbudget : (max limit.value 0).toNat = limit.value.toNat := by omega
    simp only [hfree, hlimited, hbudget]
    exact ⟨Machine.run_limited_dispatched hstart,
      fun _ _ h hle => Machine.run_limited_of_halted hstart h hle,
      fun _ _ _ h hlt => Machine.run_limited_of_failed hstart h hlt,
      Machine.run_limited_otherwise hstart⟩

/-- One instruction with a budget of one: the budget is spent and not missed. -/
theorem execute_withBudget_exact :
    ∃ final,
      execute 0 { tapeSize := .number 1, maxSteps := some (.number 1) }
          ⟨#[.increment], .empty⟩ (Source.ofBytes []) Sink.newBuffer = .halted final ∧
        final.state.steps = 1 := by
  refine ⟨⟨⟨#[1], 0, 1, 1⟩, .ofBytes [], .newBuffer⟩, ?_, rfl⟩
  have hbudget := execute_withBudget { tapeSize := .number 1 } (.number 1)
    ⟨#[.increment], .empty⟩ (Source.ofBytes []) Sink.newBuffer 0
  exact (hbudget.2 _ rfl).2.1 2 _ rfl (by decide)

end Execute

end TapeLang
