import TapeLang.Machine.Step

/-!
# Runs of the machine

**Input.** A configuration, a program, a source and a sink.
**Results.** `Machine.run` takes at most a given number of steps, and `execute`
runs a program on a fresh tape.  A run with a step budget always ends; a run
without one goes on for as many steps as its caller has patience for.
`Machine.run_add` cuts a run in two, and `Machine.run_eq_of_ended` says that an
end that was reached does not depend on the fuel.
-/

namespace TapeLang

universe u v

variable {σ : Type u} {τ : Type v} [ByteSource σ] [ByteSink τ]

namespace Machine

/-- Takes at most `fuel` steps. -/
def run (config : Config) (program : Program) :
    Nat → Machine σ τ → Progress σ τ
  | 0, m => .running m
  | fuel + 1, m =>
      match step config program m with
      | .running next => run config program fuel next
      | ended => ended

section Laws

variable {config : Config} {program : Program}

@[simp] theorem run_zero (m : Machine σ τ) : m.run config program 0 = .running m :=
  rfl

/-- A run is a step and, if the machine is still running, the rest of the run. -/
theorem run_succ (m : Machine σ τ) (fuel : Nat) :
    m.run config program (fuel + 1) =
      (m.step config program).andThen (run config program fuel) := by
  rw [run]
  cases m.step config program <;> rfl

/-- A run can be cut at any step. -/
theorem run_add (m : Machine σ τ) (first second : Nat) :
    m.run config program (first + second) =
      (m.run config program first).andThen (run config program second) := by
  induction first generalizing m with
  | zero => simp
  | succ first ih =>
      rw [Nat.succ_add, run_succ, run_succ]
      cases h : m.step config program with
      | running next => exact ih next
      | halted next => rfl
      | failed why next => rfl

/-- More fuel does not change a run that has ended. -/
theorem run_eq_of_ended {m : Machine σ τ} {fuel more : Nat} (hle : fuel ≤ more)
    (hended : (m.run config program fuel).isRunning = false) :
    m.run config program more = m.run config program fuel := by
  obtain ⟨rest, rfl⟩ := Nat.exists_eq_add_of_le hle
  rw [run_add]
  cases h : m.run config program fuel with
  | running next =>
      rw [h] at hended
      cases hended
  | halted next => rfl
  | failed why next => rfl

end Laws

end Machine

/-- The number of cells that can be addressed is below this bound: an address is
a signed number of 64 bits. -/
def addressBound : Int :=
  0x8000000000000000

/-- Why no tape of a size can be laid out. -/
def tapeBreakdown? (size : Int) : Option Breakdown :=
  if addressBound ≤ size ∨ size < -addressBound then
    some .tapeTooLarge
  else if size < 0 then
    some .tapeNegative
  else
    none

/-- A machine with a fresh tape.  If no tape of its size can be laid out, it
stops before its first step. -/
def Machine.boot (config : Config) (source : σ) (sink : τ) : Progress σ τ :=
  match tapeBreakdown? config.tapeSize.value with
  | some why => .failed (.breakdown why) ⟨State.blank 0, source, sink⟩
  | none => .running ⟨State.blank config.tapeSize.value.toNat, source, sink⟩

/-- The most steps a run takes: one more than its budget allows, since the last
one finds the budget spent, or as many as its caller has patience for. -/
def Config.fuel (config : Config) (patience : Nat) : Nat :=
  match config.maxSteps with
  | some limit => limit.value.toNat + 1
  | none => patience

/-- Runs a program on a fresh tape.  It is still running after that only if it
has no step budget and `patience` steps did not suffice. -/
def execute (patience : Nat) (config : Config) (program : Program)
    (source : σ) (sink : τ) : Progress σ τ :=
  match Machine.boot config source sink with
  | .running m => m.run config program (config.fuel patience)
  | ended => ended

end TapeLang
