import Mathlib.Tactic
import TapeLang.Proofs.JumpLayout
import TapeLang.Proofs.MachineRuns
import TapeLang.Proofs.TapeStore

/-!
# Structured loops

A tree can be run without jumps.  A primitive operation has its effect; a loop
on a zero cell costs one step and does nothing; a loop on any other cell costs
one step to enter, and then repeats its body and one test until the test finds
the cell zero.

**Input.** A code that `resolve` accepts, a configuration without a step budget,
a source and a sink.
**Results.** `execute_iff_structured`: the code has exactly one tree, and the
machine with its jump table ends if and only if the tree does, with the same
tape, input, output and number of steps, or with the same failure at the same
instruction.
-/

namespace TapeLang

universe u v

/-- How a structured run ends. -/
inductive Outcome (size : Nat) (σ : Type u) (τ : Type v) where
  | finished (s : Store size σ τ)
  | stopped (why : Failure) (pc : Nat) (s : Store size σ τ)

/-- What is to be run: a row, or the rounds of a loop that was entered. -/
inductive Task where
  | row (b : Block)
  | rounds (body : Block)

namespace Task

/-- The number of instructions of a task; rounds include the closing bracket. -/
def size : Task → Nat
  | .row b => b.size
  | .rounds body => body.size + 1

/-- The program holds the code of a task from an index on.  The closing bracket
of rounds leads back to the index before them. -/
def Placed (program : Program) (start : Nat) : Task → Prop
  | .row b => b.Placed program start
  | .rounds body =>
      body.Placed program start ∧
        program.fetch? (start + body.size : Nat) = some .loopClose ∧
        program.jumps.target? (start + body.size : Nat) = some ((start : Int) - 1)

section Stop

variable (start : Nat) (body rest : Block)

theorem stop_primitive (p : Primitive) :
    start + (row (.primitive p rest)).size = start + 1 + (row rest).size := by
  simp only [size, Block.size]
  omega

theorem stop_loop :
    start + (row (.loop body rest)).size = start + body.size + 2 + (row rest).size := by
  simp only [size, Block.size]
  omega

theorem stop_rounds :
    start + 1 + (rounds body).size = start + body.size + 2 := by
  simp only [size]
  omega

end Stop

end Task

/-- The parts of a placed loop, with its rounds as a task. -/
theorem Block.Placed.loop_parts {program : Program} {start : Nat} {body rest : Block}
    (h : (Block.loop body rest).Placed program start) :
    program.fetch? start = some .loopOpen ∧
      program.jumps.target? start = some ((start + body.size + 1 : Nat) : Int) ∧
      (Task.rounds body).Placed program (start + 1) ∧
      rest.Placed program (start + body.size + 2) := by
  cases h with
  | loop hopen hskip hbody hclose hback hrest =>
      have hindex : start + 1 + body.size = start + body.size + 1 := by omega
      refine ⟨hopen, hskip, ⟨hbody, ?_, ?_⟩, hrest⟩
      · rw [hindex]
        exact hclose
      · rw [hindex, hback]
        simp

variable {size : Nat} {σ : Type u} {τ : Type v} [ByteSource σ] [ByteSink τ]

/-- `Runs config start task s n outcome`: the task, whose code begins at index
`start`, leads from the store `s` to the outcome in `n` steps. -/
inductive Runs (config : Config) :
    Nat → Task → Store size σ τ → Nat → Outcome size σ τ → Prop
  | done {start : Nat} {s : Store size σ τ} :
      Runs config start (.row .done) s 0 (.finished s)
  | primitive {start n : Nat} {p : Primitive} {rest : Block}
      {s next : Store size σ τ} {out : Outcome size σ τ}
      (heffect : p.effect config start s = .done next)
      (hrest : Runs config (start + 1) (.row rest) next n out) :
      Runs config start (.row (.primitive p rest)) s (n + 1) out
  | primitiveStops {start : Nat} {p : Primitive} {rest : Block}
      {s left : Store size σ τ} {why : Failure}
      (heffect : p.effect config start s = .failed why left) :
      Runs config start (.row (.primitive p rest)) s 0 (.stopped why start left)
  | skip {start n : Nat} {body rest : Block}
      {s : Store size σ τ} {out : Outcome size σ τ}
      (hzero : s.cell = 0)
      (hrest : Runs config (start + body.size + 2) (.row rest) s n out) :
      Runs config start (.row (.loop body rest)) s (n + 1) out
  | enter {start k n : Nat} {body rest : Block}
      {s next : Store size σ τ} {out : Outcome size σ τ}
      (hcell : s.cell ≠ 0)
      (hrounds : Runs config (start + 1) (.rounds body) s k (.finished next))
      (hrest : Runs config (start + body.size + 2) (.row rest) next n out) :
      Runs config start (.row (.loop body rest)) s (1 + k + n) out
  | enterStops {start k pc : Nat} {body rest : Block}
      {s left : Store size σ τ} {why : Failure}
      (hcell : s.cell ≠ 0)
      (hrounds : Runs config (start + 1) (.rounds body) s k (.stopped why pc left)) :
      Runs config start (.row (.loop body rest)) s (1 + k) (.stopped why pc left)
  | lastRound {start k : Nat} {body : Block} {s next : Store size σ τ}
      (hbody : Runs config start (.row body) s k (.finished next))
      (hzero : next.cell = 0) :
      Runs config start (.rounds body) s (k + 1) (.finished next)
  | nextRound {start k n : Nat} {body : Block}
      {s next : Store size σ τ} {out : Outcome size σ τ}
      (hbody : Runs config start (.row body) s k (.finished next))
      (hcell : next.cell ≠ 0)
      (hrounds : Runs config start (.rounds body) next n out) :
      Runs config start (.rounds body) s (k + 1 + n) out
  | roundStops {start k pc : Nat} {body : Block}
      {s left : Store size σ τ} {why : Failure}
      (hbody : Runs config start (.row body) s k (.stopped why pc left)) :
      Runs config start (.rounds body) s k (.stopped why pc left)

/-- The structured run of a tree on a fresh tape, if one can be laid out. -/
def Block.Yields (tree : Block) (config : Config) (hpos : 0 < size) (source : σ)
    (sink : τ) (n : Nat) (out : Outcome size σ τ) : Prop :=
  tapeBreakdown? size = none ∧
    Runs config 0 (.row tree) (Store.blank hpos source sink) n out

namespace Outcome

/-- What the machine has come to after `n` more steps, if it ends a task as the
outcome says and goes on at index `stop`. -/
def Follows (config : Config) (program : Program) (m : Machine σ τ) (stop n : Nat) :
    Outcome size σ τ → Prop
  | .finished s =>
      m.run config program n = .running (s.machine stop (m.state.steps + n))
  | .stopped why pc s =>
      m.run config program (n + 1) = .failed why (s.machine pc (m.state.steps + n))

/-- The end of a whole run of `n` steps over a code of length `stop`. -/
def ending (stop n : Nat) : Outcome size σ τ → Progress σ τ
  | .finished s => .halted (s.machine stop n)
  | .stopped why pc s => .failed why (s.machine pc n)

end Outcome

section Steps

variable {config : Config} {program : Program}

/-- Without a budget, an instruction that is there is carried out. -/
theorem Machine.step_of_fetch? (hbudget : config.maxSteps = none) (m : Machine σ τ)
    {i : Nat} (hpc : m.state.pc = i) {x : Instruction}
    (hfetch : program.fetch? i = some x) :
    m.step config program = m.dispatch config program.jumps x := by
  have hspent : config.spent? m.state.steps = none := by
    simp [Config.spent?, hbudget]
  rw [Machine.step, hpc, if_pos (Int.ofNat_lt.2 (Program.lt_length_of_fetch? hfetch)), hspent]
  simp only [hfetch]

end Steps

section Follows

variable {config : Config} {program : Program}

/-- What follows the first `k` steps of a run follows the run. -/
theorem Outcome.Follows.after {m next : Machine σ τ} {stop k n : Nat}
    {out : Outcome size σ τ} (hrun : m.run config program k = .running next)
    (hsteps : next.state.steps = m.state.steps + k)
    (h : out.Follows config program next stop n) :
    out.Follows config program m stop (k + n) := by
  have hcount : m.state.steps + (k + n : Nat) = next.state.steps + n := by
    rw [hsteps]
    push_cast
    omega
  cases out with
  | finished s =>
      rw [Outcome.Follows, Machine.run_add_of_running hrun, hcount]
      exact h
  | stopped why pc s =>
      rw [Outcome.Follows, Nat.add_assoc, Machine.run_add_of_running hrun, hcount]
      exact h

theorem Outcome.Follows.after_step {m next : Machine σ τ} {stop n : Nat}
    {out : Outcome size σ τ} (hstep : m.step config program = .running next)
    (hsteps : next.state.steps = m.state.steps + 1)
    (h : out.Follows config program next stop n) :
    out.Follows config program m stop (n + 1) := by
  have hrun : m.run config program 1 = .running next := by
    rw [Machine.run_succ_of_running hstep, Machine.run_zero]
  rw [Nat.add_comm]
  exact Outcome.Follows.after hrun hsteps h

end Follows

section Simulation

variable {config : Config} {program : Program}
variable (hbudget : config.maxSteps = none)
include hbudget

theorem Store.step_primitive (hsize : config.tapeSize.value = size)
    (s : Store size σ τ) {start : Nat} (steps : Int) {p : Primitive}
    (hfetch : program.fetch? start = some p.instruction) :
    (s.machine start steps).step config program =
      (p.effect config start s).progress start steps := by
  rw [Machine.step_of_fetch? hbudget _ (s.pc_machine start steps) hfetch,
    dispatch_primitive s start steps program.jumps hsize p]

theorem Store.step_open (s : Store size σ τ) {start : Nat} (steps : Int)
    (hopen : program.fetch? start = some .loopOpen) {target : Nat}
    (hskip : program.jumps.target? start = some (target : Int)) :
    (s.machine start steps).step config program =
      .running
        (s.machine (if s.cell = 0 then target + 1 else start + 1 : Nat) (steps + 1)) := by
  rw [Machine.step_of_fetch? hbudget _ (s.pc_machine start steps) hopen,
    dispatch_loopOpen]
  by_cases hzero : s.cell = 0
  · rw [if_pos hzero, if_pos hzero, jump_machine s start steps hskip]
    rfl
  · rw [if_neg hzero, if_neg hzero]
    rfl

theorem Store.step_close (s : Store size σ τ) {last start : Nat} (steps : Int)
    (hclose : program.fetch? last = some .loopClose)
    (hback : program.jumps.target? last = some ((start : Int) - 1)) :
    (s.machine last steps).step config program =
      .running
        (s.machine (if s.cell = 0 then last + 1 else start : Nat) (steps + 1)) := by
  rw [Machine.step_of_fetch? hbudget _ (s.pc_machine last steps) hclose,
    dispatch_loopClose]
  by_cases hzero : s.cell = 0
  · rw [if_pos hzero, if_pos hzero]
    rfl
  · rw [if_neg hzero, if_neg hzero, jump_machine s last steps hback, Int.sub_add_cancel]

/-- The machine follows every structured run. -/
theorem Runs.follows (hsize : config.tapeSize.value = size) {start n : Nat}
    {task : Task} {s : Store size σ τ} {out : Outcome size σ τ}
    (h : Runs config start task s n out) (hplaced : task.Placed program start)
    (steps : Int) :
    out.Follows config program (s.machine start steps) (start + task.size) n := by
  induction h generalizing steps with
  | done =>
      simp [Outcome.Follows, Task.size, Block.size]
  | @primitive start n p rest s next out heffect _ ih =>
      cases hplaced with
      | primitive hfetch hrest =>
          have hstep := s.step_primitive hbudget hsize steps hfetch
          rw [heffect] at hstep
          have hmore := ih hrest (steps + 1)
          rw [Task.stop_primitive]
          exact hmore.after_step hstep rfl
  | @primitiveStops start p rest s left why heffect =>
      cases hplaced with
      | primitive hfetch hrest =>
          have hstep := s.step_primitive hbudget hsize steps hfetch
          rw [heffect] at hstep
          simp [Outcome.Follows, Machine.run, hstep, Effect.progress]
  | @skip start n body rest s out hzero _ ih =>
      obtain ⟨hopen, hskip, -, hrest⟩ := hplaced.loop_parts
      have hstep := s.step_open hbudget steps hopen hskip
      rw [if_pos hzero] at hstep
      have hmore := ih hrest (steps + 1)
      rw [Task.stop_loop]
      exact hmore.after_step hstep rfl
  | @enter start k n body rest s next out hcell _ _ ihRounds ihRest =>
      obtain ⟨hopen, hskip, hrounds, hrest⟩ := hplaced.loop_parts
      have hstep := s.step_open hbudget steps hopen hskip
      rw [if_neg hcell] at hstep
      have hloop := (ihRounds hrounds (steps + 1)).after_step hstep rfl
      rw [Outcome.Follows, Nat.add_comm k 1, Task.stop_rounds] at hloop
      rw [Task.stop_loop]
      exact Outcome.Follows.after hloop rfl (ihRest hrest _)
  | @enterStops start k pc body rest s left why hcell _ ihRounds =>
      obtain ⟨hopen, hskip, hrounds, -⟩ := hplaced.loop_parts
      have hstep := s.step_open hbudget steps hopen hskip
      rw [if_neg hcell] at hstep
      rw [Nat.add_comm 1 k]
      exact (ihRounds hrounds (steps + 1)).after_step hstep rfl
  | @lastRound start k body s next _ hzero ihBody =>
      obtain ⟨hbody, hclose, hback⟩ := hplaced
      have hrun := ihBody hbody steps
      have hstep := next.step_close hbudget (steps + k) hclose hback
      rw [if_pos hzero] at hstep
      have htest : (Outcome.finished next).Follows config program
          (next.machine (start + body.size : Nat) (steps + k))
          (start + body.size + 1) 1 := by
        rw [Outcome.Follows, Machine.run_succ_of_running hstep]
        rfl
      exact Outcome.Follows.after hrun rfl htest
  | @nextRound start k n body s next out _ hcell _ ihBody ihRounds =>
      obtain ⟨hbody, hclose, hback⟩ := hplaced
      have hrun := ihBody hbody steps
      have hstep := next.step_close hbudget (steps + k) hclose hback
      rw [if_neg hcell] at hstep
      have hmore := (ihRounds ⟨hbody, hclose, hback⟩ (steps + k + 1)).after_step hstep rfl
      rw [Nat.add_assoc, Nat.add_comm 1 n]
      exact Outcome.Follows.after hrun rfl hmore
  | roundStops _ ihBody =>
      exact ihBody hplaced.1 steps

end Simulation

section Converse

variable {config : Config} {program : Program}

/-- Within `fuel` steps the task has a structured run, or the machine is still
running. -/
def Task.Settled (config : Config) (program : Program) (fuel start : Nat) (task : Task)
    (s : Store size σ τ) (steps : Int) : Prop :=
  (∃ n ≤ fuel, ∃ out, Runs config start task s n out) ∨
    ((s.machine start steps).run config program fuel).isRunning = true

theorem Task.Settled.of_run {fuel k start start' : Nat} {task task' : Task}
    {s s' : Store size σ τ} {steps steps' : Int} (hk : k ≤ fuel)
    (hrun : (s.machine start steps).run config program k = .running (s'.machine start' steps'))
    (hruns : ∀ n out, Runs config start' task' s' n out →
      ∃ out', Runs config start task s (k + n) out')
    (h : task'.Settled config program (fuel - k) start' s' steps') :
    task.Settled config program fuel start s steps := by
  rcases h with ⟨n, hn, out, hout⟩ | hrunning
  · obtain ⟨out', hout'⟩ := hruns n out hout
    exact Or.inl ⟨k + n, by omega, out', hout'⟩
  · right
    obtain ⟨rest, rfl⟩ := Nat.exists_eq_add_of_le hk
    rw [Nat.add_sub_cancel_left] at hrunning
    rwa [Machine.run_add_of_running hrun]

variable (hbudget : config.maxSteps = none) (hsize : config.tapeSize.value = size)
include hbudget hsize

/-- A row costs a step before it needs another task to be settled. -/
theorem Task.settled_row {fuel : Nat}
    (ih : ∀ less < fuel, ∀ (task : Task) (start : Nat) (s : Store size σ τ) (steps : Int),
      task.Placed program start → task.Settled config program less start s steps)
    (b : Block) (start : Nat) (s : Store size σ τ) (steps : Int)
    (hplaced : b.Placed program start) :
    (Task.row b).Settled config program fuel start s steps := by
  cases hplaced with
  | done => exact Or.inl ⟨0, Nat.zero_le _, _, .done⟩
  | @primitive _ p rest hfetch hrest =>
      cases heffect : p.effect config start s with
      | failed why left => exact Or.inl ⟨0, Nat.zero_le _, _, .primitiveStops heffect⟩
      | done next =>
          cases fuel with
          | zero => exact Or.inr rfl
          | succ fuel =>
              have hstep := s.step_primitive hbudget hsize steps hfetch
              rw [heffect] at hstep
              refine Task.Settled.of_run (k := 1) (by omega)
                (Machine.run_succ_of_running hstep 0) ?_
                (ih fuel (by omega) (.row rest) (start + 1) next (steps + 1) hrest)
              intro n out hout
              exact ⟨out, by rw [Nat.add_comm]; exact .primitive heffect hout⟩
  | @loop _ body rest hopen hskip hbody hclose hback hrest =>
      cases fuel with
      | zero => exact Or.inr rfl
      | succ fuel =>
          have hparts := (Block.Placed.loop hopen hskip hbody hclose hback hrest).loop_parts
          have hstep := s.step_open hbudget steps hopen hskip
          by_cases hzero : s.cell = 0
          · rw [if_pos hzero] at hstep
            refine Task.Settled.of_run (k := 1) (by omega)
              (Machine.run_succ_of_running hstep 0) ?_
              (ih fuel (by omega) (.row rest) (start + body.size + 2) s (steps + 1) hrest)
            intro n out hout
            exact ⟨out, by rw [Nat.add_comm]; exact .skip hzero hout⟩
          · rw [if_neg hzero] at hstep
            rcases ih fuel (by omega) (.rounds body) (start + 1) s (steps + 1) hparts.2.2.1
              with ⟨k, hk, out, hrounds⟩ | hrunning
            · cases out with
              | stopped why pc left =>
                  exact Or.inl ⟨1 + k, by omega, _, .enterStops hzero hrounds⟩
              | finished next =>
                  have hfollows := (hrounds.follows hbudget hsize hparts.2.2.1
                    (steps + 1)).after_step hstep rfl
                  rw [Outcome.Follows, Task.stop_rounds] at hfollows
                  refine Task.Settled.of_run (by omega) hfollows ?_
                    (ih (fuel + 1 - (k + 1)) (by omega) (.row rest)
                      (start + body.size + 2) next _ hrest)
                  intro n out hout
                  exact ⟨out, by rw [Nat.add_comm k 1]; exact .enter hzero hrounds hout⟩
            · right
              rwa [Machine.run_succ_of_running hstep]

/-- Every task is settled, whatever the fuel.  The induction is on the fuel: each
pass through a loop takes at least the step of its test. -/
theorem Task.settled (fuel : Nat) (task : Task) (start : Nat) (s : Store size σ τ)
    (steps : Int) (hplaced : task.Placed program start) :
    task.Settled config program fuel start s steps := by
  induction fuel using Nat.strong_induction_on generalizing task start s steps with
  | _ fuel ih =>
      cases task with
      | row b => exact Task.settled_row hbudget hsize ih b start s steps hplaced
      | rounds body =>
          obtain ⟨hbody, hclose, hback⟩ := hplaced
          rcases Task.settled_row hbudget hsize ih body start s steps hbody
            with ⟨k, hk, out, hrow⟩ | hrunning
          · cases out with
            | stopped why pc left => exact Or.inl ⟨k, hk, _, .roundStops hrow⟩
            | finished next =>
                have hfollows := hrow.follows hbudget hsize hbody steps
                have hstep := next.step_close hbudget (steps + k) hclose hback
                by_cases hfuel : k = fuel
                · subst hfuel
                  right
                  rw [hfollows]
                  rfl
                by_cases hzero : next.cell = 0
                · exact Or.inl ⟨k + 1, by omega, _, .lastRound hrow hzero⟩
                · rw [if_neg hzero] at hstep
                  have hrun : (s.machine start steps).run config program (k + 1) =
                      .running (next.machine start (steps + k + 1)) := by
                    rw [Machine.run_add_of_running hfollows]
                    exact Machine.run_succ_of_running hstep 0
                  refine Task.Settled.of_run (by omega) hrun ?_
                    (ih (fuel - (k + 1)) (by omega) (.rounds body) start next _
                      ⟨hbody, hclose, hback⟩)
                  intro n out hout
                  exact ⟨out, .nextRound hrow hzero hout⟩
          · exact Or.inr hrunning

/-- A structured run of a whole tree ends the machine one step after its last one. -/
theorem Runs.run_ending {tree : Block} (hplaced : tree.Placed program 0)
    (hlength : program.length = tree.size) {s : Store size σ τ} {n : Nat}
    {out : Outcome size σ τ} (h : Runs config 0 (.row tree) s n out) :
    (s.machine 0 0).run config program (n + 1) = out.ending tree.size n := by
  have hfollows := h.follows hbudget hsize hplaced 0
  cases out with
  | finished last =>
      simp only [Outcome.Follows, Task.size, Nat.zero_add, Nat.cast_zero,
        Store.steps_machine, Int.zero_add] at hfollows
      rw [Machine.run_add_of_running hfollows]
      simp [Machine.run, Machine.step, hlength, Outcome.ending]
  | stopped why pc left =>
      simpa [Outcome.Follows, Outcome.ending] using hfollows

/-- A machine that runs the code of a tree ends if and only if the tree does, and
in the same way. -/
theorem Block.run_ended_iff {tree : Block} (hplaced : tree.Placed program 0)
    (hlength : program.length = tree.size) (s : Store size σ τ) (p : Progress σ τ) :
    (∃ fuel, (s.machine 0 0).run config program fuel = p ∧ p.isRunning = false) ↔
      ∃ n out, Runs config 0 (.row tree) s n out ∧ p = out.ending tree.size n := by
  constructor
  · rintro ⟨fuel, hrun, hended⟩
    rcases Task.settled hbudget hsize fuel (.row tree) 0 s 0 hplaced
      with ⟨n, -, out, hruns⟩ | hrunning
    · refine ⟨n, out, hruns, ?_⟩
      refine Machine.run_ended_unique hrun hended
        (hruns.run_ending hbudget hsize hplaced hlength) ?_
      cases out <;> rfl
    · rw [Nat.cast_zero, hrun, hended] at hrunning
      cases hrunning
  · rintro ⟨n, out, hruns, rfl⟩
    refine ⟨n + 1, hruns.run_ending hbudget hsize hplaced hlength, ?_⟩
    cases out <;> rfl

end Converse

section Execute

variable {config : Config}

/-- The only tape of at least one cell that cannot be laid out is one that is too
large. -/
theorem tapeBreakdown?_of_pos {size : Nat} (hpos : 0 < size) {why : Breakdown}
    (h : tapeBreakdown? size = some why) :
    why = .tapeTooLarge := by
  rw [tapeBreakdown?] at h
  split at h
  · exact (Option.some.inj h).symm
  · rw [if_neg (by omega)] at h
    cases h

/-- Runs of the machine end as structured runs on a fresh tape do. -/
theorem Block.execute_ended_iff {tree : Block} {jumps : JumpTable}
    (hresolve : Loop.resolve tree.flatten = .ok jumps) (hpos : 0 < size)
    (hsize : config.tapeSize.value = size) (hbudget : config.maxSteps = none)
    (source : σ) (sink : τ) {p : Progress σ τ} (hended : p.isRunning = false)
    (htape : ∀ m, p ≠ .failed (.breakdown .tapeTooLarge) m) :
    (∃ patience,
        execute patience config ⟨tree.flatten.toArray, jumps⟩ source sink = p) ↔
      ∃ n out, tree.Yields config hpos source sink n out ∧
        p = out.ending tree.size n := by
  cases hfits : tapeBreakdown? size with
  | some why =>
      have hexecute : ∀ patience,
          execute patience config ⟨tree.flatten.toArray, jumps⟩ source sink =
            .failed (.breakdown .tapeTooLarge) ⟨State.blank 0, source, sink⟩ := by
        intro patience
        rw [execute, Machine.boot, hsize, hfits, tapeBreakdown?_of_pos hpos hfits]
      constructor
      · rintro ⟨patience, hp⟩
        exact absurd (hp.symm.trans (hexecute patience)) (htape _)
      · rintro ⟨n, out, ⟨hnone, -⟩, -⟩
        rw [hfits] at hnone
        cases hnone
  | none =>
      have hfuel : ∀ patience, config.fuel patience = patience := by
        intro patience
        rw [Config.fuel, hbudget]
      have hboot := Store.boot_eq hsize hpos hfits source sink
      have hiff := Block.run_ended_iff hbudget hsize (Block.placed_of_resolve hresolve)
        (by simp [Program.length]) (Store.blank hpos source sink) p
      constructor
      · rintro ⟨patience, hp⟩
        rw [execute_of_boot hboot, hfuel] at hp
        obtain ⟨n, out, hruns, hout⟩ := hiff.1 ⟨patience, hp, hended⟩
        exact ⟨n, out, ⟨hfits, hruns⟩, hout⟩
      · rintro ⟨n, out, ⟨-, hruns⟩, hout⟩
        obtain ⟨patience, hp, -⟩ := hiff.2 ⟨n, out, hruns, hout⟩
        refine ⟨patience, ?_⟩
        rw [execute_of_boot hboot, hfuel]
        exact hp

/-- **Jumps implement structured loops.**  A code that is accepted has exactly one
tree.  Without a step budget the machine halts as the tree finishes, and fails as
the tree stops. -/
theorem execute_iff_structured {code : List Instruction} {jumps : JumpTable}
    (hresolve : Loop.resolve code = .ok jumps) :
    ∃ tree : Block,
      tree.flatten = code
      ∧
      (∀ other : Block, other.flatten = code → other = tree)
      ∧
      ∀ (size : Nat) (hpos : 0 < size) (config : Config),
        config.tapeSize.value = size → config.maxSteps = none →
        ∀ (source : σ) (sink : τ),
          (∀ m : Machine σ τ,
            (∃ patience, execute patience config ⟨code.toArray, jumps⟩ source sink =
                .halted m)
              ↔
            ∃ (n : Nat) (s : Store size σ τ),
              tree.Yields config hpos source sink n (.finished s) ∧
                m = s.machine code.length n)
          ∧
          (∀ (why : Failure) (m : Machine σ τ), why ≠ .breakdown .tapeTooLarge →
            ((∃ patience, execute patience config ⟨code.toArray, jumps⟩ source sink =
                .failed why m)
              ↔
            ∃ (n pc : Nat) (s : Store size σ τ),
              tree.Yields config hpos source sink n (.stopped why pc s) ∧
                m = s.machine pc n)) := by
  obtain ⟨tree, rfl⟩ := Loop.exists_flatten_eq hresolve
  refine ⟨tree, rfl, fun other hother => Block.flatten_injective hother, ?_⟩
  intro size hpos config hsize hbudget source sink
  constructor
  · intro m
    rw [Block.execute_ended_iff hresolve hpos hsize hbudget source sink rfl
      (fun _ h => by cases h), Block.length_flatten]
    constructor
    · rintro ⟨n, out, hyields, hout⟩
      cases out with
      | finished s => exact ⟨n, s, hyields, Progress.halted.inj hout⟩
      | stopped why pc s => cases hout
    · rintro ⟨n, s, hyields, rfl⟩
      exact ⟨n, .finished s, hyields, rfl⟩
  · intro why m hwhy
    rw [Block.execute_ended_iff hresolve hpos hsize hbudget source sink rfl
      (fun _ h => hwhy (Progress.failed.inj h).1)]
    constructor
    · rintro ⟨n, out, hyields, hout⟩
      cases out with
      | finished s => cases hout
      | stopped why' pc s =>
          obtain ⟨rfl, rfl⟩ := Progress.failed.inj hout
          exact ⟨n, pc, s, hyields, rfl⟩
    · rintro ⟨n, pc, s, hyields, rfl⟩
      exact ⟨n, .stopped why pc s, hyields, rfl⟩

/-- The code `+[-]` on one cell: two operations, one step into the loop and one
test out of it. -/
theorem execute_iff_structured_clear :
    Loop.resolve [.increment, .loopOpen, .decrement, .loopClose] =
        .ok (.ofPairs [(1, 3)]) ∧
      ∃ patience,
        execute patience { tapeSize := .number 1 }
            ⟨[.increment, .loopOpen, .decrement, .loopClose].toArray, .ofPairs [(1, 3)]⟩
            (Source.ofBytes []) Sink.newBuffer =
          .halted
            ((Store.blank Nat.one_pos (Source.ofBytes []) Sink.newBuffer).machine 4 4) := by
  refine ⟨rfl, ?_⟩
  obtain ⟨tree, -, hunique, hall⟩ :=
    execute_iff_structured (σ := Source) (τ := Sink)
      (rfl : Loop.resolve [.increment, .loopOpen, .decrement, .loopClose] =
        .ok (.ofPairs [(1, 3)]))
  obtain rfl := hunique
    (.primitive .increment (.loop (.primitive .decrement .done) .done)) rfl
  refine ((hall 1 Nat.one_pos { tapeSize := .number 1 } rfl rfl (Source.ofBytes [])
    Sink.newBuffer).1 _).2 ⟨4, _, ⟨rfl, ?_⟩, rfl⟩
  have hround : Runs (σ := Source) (τ := Sink) { tapeSize := .number 1 } 2
      (.rounds (.primitive .decrement .done))
      ((Store.blank Nat.one_pos (Source.ofBytes []) Sink.newBuffer).put 1) 2
      (.finished (Store.blank Nat.one_pos (Source.ofBytes []) Sink.newBuffer)) :=
    .lastRound (.primitive rfl .done) (by decide)
  exact .primitive rfl (.enter (by decide) hround .done)

end Execute

end TapeLang
