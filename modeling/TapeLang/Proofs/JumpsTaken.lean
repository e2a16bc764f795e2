import Mathlib.Tactic
import TapeLang.Proofs.LoopControl

/-!
# The jumps that a run takes

A run looks up a jump at a bracket that jumps, and nowhere else.

**Input.** A configuration, any code, a jump table whose targets are not below minus one,
a second table that has the jumps of the first at the brackets of the code, a source and
a sink.
**Results.** `Machine.step_same_or_lacks`: a step is the same with both tables, or it
stands at a bracket that jumps and for which the first table has no jump.
`execute_jumps_taken` follows this through whole runs.  A run that lacks no jump is the
same with the second table; one that does is the beginning of the run with the second
table.  Two tables that agree at the brackets give the same run.
-/

namespace TapeLang

universe u v

variable {σ : Type u} {τ : Type v}

/-- At the brackets of a code the second table has every jump of the first. -/
def JumpTable.Extends (code : List Instruction) (table other : JumpTable) : Prop :=
  ∀ (i : Nat) (target : Int), Loop.IsBracket code i → table.target? i = some target →
    other.target? i = some target

/-- The machine was stopped by a jump that its table does not hold. -/
def Progress.Misses : Progress σ τ → Prop
  | .failed (.breakdown (.missingJump _)) _ => True
  | _ => False

theorem Progress.exists_of_misses {p : Progress σ τ} (h : p.Misses) :
    ∃ key m, p = .failed (.breakdown (.missingJump key)) m := by
  unfold Progress.Misses at h
  split at h
  · next key m => exact ⟨key, m, rfl⟩
  · exact h.elim

/-- The bracket at index `i` is next, it jumps, and the table has no jump for it. -/
structure Machine.Lacks (code : List Instruction) (table : JumpTable) (m : Machine σ τ)
    (i : Nat) : Prop where
  place : m.state.pc = i
  jumps : (code[i]? = some .loopOpen ∧ m.state.cell? = some 0) ∨
    (code[i]? = some .loopClose ∧ ∃ value, m.state.cell? = some value ∧ value ≠ 0)
  missing : table.target? i = none

namespace Machine

section Dispatch

variable {m : Machine σ τ} {config : Config} {table other : JumpTable}

theorem not_misses_store (m : Machine σ τ) (value : Int) : ¬ (m.store value).Misses := by
  rw [store]
  split
  · exact id
  · exact id

theorem not_misses_add (m : Machine σ τ) (value : Int) : ¬ (m.add value).Misses := by
  rw [add]
  split
  · exact id
  · exact id

theorem not_misses_read [ByteSource σ] (m : Machine σ τ) : ¬ (m.read config).Misses := by
  rw [read]
  split
  · exact not_misses_store _ _
  · cases config.eof with
    | error => exact id
    | zero => exact not_misses_store _ _
    | unchanged => exact id

/-- Only brackets look up a jump. -/
theorem not_misses_dispatch [ByteSource σ] [ByteSink τ] {x : Instruction}
    (hopen : x ≠ .loopOpen) (hclose : x ≠ .loopClose) :
    ¬ (m.dispatch config table x).Misses := by
  cases x with
  | moveRight =>
      rw [dispatch, moveRight]
      split
      · exact id
      · exact id
  | moveLeft =>
      rw [dispatch, moveLeft]
      split
      · exact id
      · exact id
  | increment => exact not_misses_add m 1
  | decrement => exact not_misses_add m (-1)
  | output =>
      rw [dispatch, write]
      split
      · exact id
      · split
        · exact id
        · exact id
  | input => exact not_misses_read m
  | loopOpen => exact absurd rfl hopen
  | loopClose => exact absurd rfl hclose

theorem dispatch_table [ByteSource σ] [ByteSink τ] {x : Instruction}
    (hopen : x ≠ .loopOpen) (hclose : x ≠ .loopClose) :
    m.dispatch config other x = m.dispatch config table x := by
  cases x with
  | loopOpen => exact absurd rfl hopen
  | loopClose => exact absurd rfl hclose
  | _ => rfl

end Dispatch

section Step

variable {config : Config} {code : List Instruction} {table other : JumpTable}
variable {m next : Machine σ τ} {i : Nat}

/-- A bracket is the same with both tables, or it jumps and the first table has no jump
for it. -/
theorem bracket_same_or_lacks (hextends : table.Extends code other) (hi : m.state.pc = i)
    (hbracket : Loop.IsBracket code i) {test : UInt8 → Bool}
    (htest : ∀ value, m.state.cell? = some value → test value = true →
      (code[i]? = some .loopOpen ∧ m.state.cell? = some 0) ∨
        (code[i]? = some .loopClose ∧ ∃ value, m.state.cell? = some value ∧ value ≠ 0)) :
    (¬ (m.bracket table test).Misses ∧ m.bracket other test = m.bracket table test) ∨
      (m.Lacks code table i ∧
        m.bracket table test = .failed (.breakdown (.missingJump i)) m) := by
  rw [bracket, bracket]
  cases hcell : m.state.cell? with
  | none => exact Or.inl ⟨id, rfl⟩
  | some value =>
      by_cases hjumps : test value = true
      · simp only [hjumps, if_true, jump, hi]
        cases htarget : table.target? i with
        | none => exact Or.inr ⟨⟨hi, htest value hcell hjumps, htarget⟩, rfl⟩
        | some target =>
            rw [hextends i target hbracket htarget]
            exact Or.inl ⟨id, rfl⟩
      · simp only [hjumps, Bool.false_eq_true, if_false]
        exact Or.inl ⟨id, trivial⟩

variable [ByteSource σ] [ByteSink τ]

theorem dispatch_same_or_lacks (hextends : table.Extends code other) (hi : m.state.pc = i)
    {x : Instruction} (hx : code[i]? = some x) :
    (¬ (m.dispatch config table x).Misses ∧
        m.dispatch config other x = m.dispatch config table x) ∨
      (m.Lacks code table i ∧
        m.dispatch config table x = .failed (.breakdown (.missingJump i)) m) := by
  by_cases hopen : x = .loopOpen
  · subst hopen
    refine bracket_same_or_lacks hextends hi (Or.inl hx) fun value hcell htest => ?_
    obtain rfl : value = 0 := by simpa using htest
    exact Or.inl ⟨hx, hcell⟩
  by_cases hclose : x = .loopClose
  · subst hclose
    refine bracket_same_or_lacks hextends hi (Or.inr hx) fun value hcell htest => ?_
    exact Or.inr ⟨hx, value, hcell, by simpa using htest⟩
  · exact Or.inl ⟨not_misses_dispatch hopen hclose, dispatch_table hopen hclose⟩

/-- A step is the same with both tables, or it stands at a bracket that jumps and for
which the first table has no jump. -/
theorem step_same_or_lacks (config : Config) (hextends : table.Extends code other)
    (hi : m.state.pc = i) :
    (¬ (m.step config ⟨code.toArray, table⟩).Misses ∧
        m.step config ⟨code.toArray, other⟩ = m.step config ⟨code.toArray, table⟩) ∨
      (m.Lacks code table i ∧
        m.step config ⟨code.toArray, table⟩ = .failed (.breakdown (.missingJump i)) m) := by
  have hlength : (Program.mk code.toArray other).length =
      (Program.mk code.toArray table).length := rfl
  rw [step, step, hlength, hi, Program.fetch?_mk_toArray, Program.fetch?_mk_toArray]
  by_cases hpc : (i : Int) < (Program.mk code.toArray table).length
  · simp only [hpc, if_true]
    cases config.spent? m.state.steps with
    | some limit => exact Or.inl ⟨id, rfl⟩
    | none =>
        cases hx : code[i]? with
        | none => exact Or.inl ⟨id, rfl⟩
        | some x => exact dispatch_same_or_lacks hextends hi hx
  · simp only [hpc, if_false]
    exact Or.inl ⟨id, trivial⟩

/-- Tables that agree at the brackets give the same step. -/
theorem step_eq_of_agree
    (hagree : ∀ j, Loop.IsBracket code j → other.target? j = table.target? j)
    (hi : m.state.pc = i) :
    m.step config ⟨code.toArray, other⟩ = m.step config ⟨code.toArray, table⟩ := by
  have hextends : table.Extends code other := fun j target hj htarget => by
    rw [hagree j hj, htarget]
  have hback : other.Extends code table := fun j target hj htarget => by
    rw [← hagree j hj, htarget]
  rcases step_same_or_lacks config hextends hi with ⟨-, hsame⟩ | ⟨-, hfailed⟩
  · exact hsame
  · rcases step_same_or_lacks config hback hi with ⟨-, hsame⟩ | ⟨-, hother⟩
    · exact hsame.symm
    · rw [hother, hfailed]

/-- Targets that are not below minus one lead to no place before the code. -/
theorem exists_pc_of_step {program : Program}
    (htargets : ∀ j target, program.jumps.target? j = some target → -1 ≤ target)
    (hi : m.state.pc = i) (h : m.step config program = .running next) :
    ∃ j : Nat, next.state.pc = j := by
  have hbracket : ∀ {test}, m.bracket program.jumps test = .running next →
      ∃ j : Nat, next.state.pc = j := by
    intro test hnext
    obtain ⟨-, value, -, ⟨-, target, htarget, hpc⟩ | ⟨-, hpc⟩⟩ := bracket_eq_running hnext
    · have hge := htargets _ _ htarget
      exact Int.eq_ofNat_of_zero_le (by omega)
    · exact ⟨i + 1, by rw [hpc, hi]; rfl⟩
  obtain ⟨x, -, hdispatch⟩ := dispatch_of_step h
  by_cases hopen : x = .loopOpen
  · subst hopen
    exact hbracket hdispatch
  by_cases hclose : x = .loopClose
  · subst hclose
    exact hbracket hdispatch
  · exact ⟨i + 1, by rw [pc_of_dispatch hopen hclose hdispatch, hi]; rfl⟩

end Step

section Run

variable [ByteSource σ] [ByteSink τ] {config : Config} {code : List Instruction}
variable {table other : JumpTable} {m last : Machine σ τ} {i : Nat}
variable (htargets : ∀ j target, table.target? j = some target → -1 ≤ target)
include htargets

/-- A run that lacks no jump is the same with the second table. -/
theorem run_of_not_misses (hextends : table.Extends code other) (hi : m.state.pc = i)
    {n : Nat} (h : ¬ (m.run config ⟨code.toArray, table⟩ n).Misses) :
    m.run config ⟨code.toArray, other⟩ n = m.run config ⟨code.toArray, table⟩ n := by
  induction n generalizing m i with
  | zero => rfl
  | succ n ih =>
      rw [run_succ] at h
      rw [run_succ, run_succ]
      rcases step_same_or_lacks config hextends hi with ⟨-, hsame⟩ | ⟨-, hfailed⟩
      · rw [hsame]
        cases hstep : m.step config ⟨code.toArray, table⟩ with
        | running next =>
            rw [hstep] at h
            obtain ⟨j, hj⟩ := exists_pc_of_step htargets hi hstep
            exact ih hj h
        | halted last => rfl
        | failed why last => rfl
      · rw [hfailed] at h
        exact absurd trivial h

/-- Tables that agree at the brackets give the same run. -/
theorem run_eq_of_agree
    (hagree : ∀ j, Loop.IsBracket code j → other.target? j = table.target? j)
    (hi : m.state.pc = i) (n : Nat) :
    m.run config ⟨code.toArray, other⟩ n = m.run config ⟨code.toArray, table⟩ n := by
  induction n generalizing m i with
  | zero => rfl
  | succ n ih =>
      rw [run_succ, run_succ, step_eq_of_agree hagree hi]
      cases hstep : m.step config ⟨code.toArray, table⟩ with
      | running next =>
          obtain ⟨j, hj⟩ := exists_pc_of_step htargets hi hstep
          exact ih hj
      | halted last => rfl
      | failed why last => rfl

/-- A run that lacks a jump has come to a bracket that jumps, and the run with the second
table comes to it too. -/
theorem exists_lacks_of_run (hextends : table.Extends code other) (hi : m.state.pc = i)
    {n : Nat} {key : Int}
    (h : m.run config ⟨code.toArray, table⟩ n =
      .failed (.breakdown (.missingJump key)) last) :
    ∃ j k : Nat, key = j ∧ last.Lacks code table j ∧
      m.run config ⟨code.toArray, table⟩ k = .running last ∧
      m.run config ⟨code.toArray, other⟩ k = .running last := by
  obtain ⟨k, -, before, hrun, hstep⟩ := exists_last_step h rfl
  obtain ⟨j, hj⟩ : ∃ j : Nat, before.state.pc = j :=
    run_invariant (P := fun m => ∃ j : Nat, m.state.pc = j)
      (fun _ _ ⟨_, hpc⟩ hnext => exists_pc_of_step htargets hpc hnext) ⟨i, hi⟩ hrun
  rcases step_same_or_lacks config hextends hj with ⟨hnone, -⟩ | ⟨hlacks, hfailed⟩
  · rw [hstep] at hnone
    exact absurd trivial hnone
  · rw [hfailed] at hstep
    cases hstep
    refine ⟨j, k, rfl, hlacks, hrun, ?_⟩
    rw [run_of_not_misses htargets hextends hi (by rw [hrun]; exact id), hrun]

end Run

/-- A run without a tape stops before its first step, and not for want of a jump. -/
theorem boot_ne_missingJump (config : Config) (source : σ) (sink : τ) (key : Int)
    (m : Machine σ τ) :
    boot config source sink ≠ .failed (.breakdown (.missingJump key)) m := by
  rw [boot, tapeBreakdown?]
  intro h
  split at h
  · next why hwhy =>
      cases h
      split at hwhy
      · cases hwhy
      · split at hwhy
        · cases hwhy
        · cases hwhy
  · cases h

end Machine

section Execute

variable [ByteSource σ] [ByteSink τ]

/-- **Jumps that are taken.**  Let the targets of a table be not below minus one.  If a
second table has the jumps of the first at the brackets of the code, then a run that does
not miss a jump is the same with the second table: same end, state, input and output.  A
run that misses one has come to a bracket that jumps and for which the first table has no
jump, and names it; the run with the second table comes to the same machine.  So what
tables hold at other indices does not matter. -/
theorem execute_jumps_taken (config : Config) (code : List Instruction)
    {table other : JumpTable}
    (htargets : ∀ i target, table.target? i = some target → -1 ≤ target)
    (source : σ) (sink : τ) (patience : Nat) :
    (table.Extends code other →
      (∀ p, execute patience config ⟨code.toArray, table⟩ source sink = p →
        (∀ key m, p ≠ .failed (.breakdown (.missingJump key)) m) →
        execute patience config ⟨code.toArray, other⟩ source sink = p)
        ∧
      (∀ key m,
        execute patience config ⟨code.toArray, table⟩ source sink =
          .failed (.breakdown (.missingJump key)) m →
        ∃ i k : Nat, key = i ∧ m.Lacks code table i ∧
          Machine.Reached config ⟨code.toArray, table⟩ source sink k m ∧
          Machine.Reached config ⟨code.toArray, other⟩ source sink k m))
      ∧
    ((∀ i, Loop.IsBracket code i → other.target? i = table.target? i) →
      execute patience config ⟨code.toArray, other⟩ source sink =
        execute patience config ⟨code.toArray, table⟩ source sink) := by
  cases hboot : Machine.boot config source sink with
  | running start =>
      have hpc : start.state.pc = (0 : Nat) := (Machine.start_of_boot hboot).1
      simp only [execute_of_boot hboot]
      refine ⟨fun hextends => ⟨?_, fun key m hfailed => ?_⟩, fun hagree => ?_⟩
      · rintro p rfl hkept
        refine Machine.run_of_not_misses htargets hextends hpc fun hmisses => ?_
        obtain ⟨key, m, hfailed⟩ := Progress.exists_of_misses hmisses
        exact hkept key m hfailed
      · obtain ⟨i, k, hkey, hlacks, hrun, hother⟩ :=
          Machine.exists_lacks_of_run htargets hextends hpc hfailed
        exact ⟨i, k, hkey, hlacks, ⟨start, hboot, hrun⟩, ⟨start, hboot, hother⟩⟩
      · exact Machine.run_eq_of_agree htargets hagree hpc _
  | halted last
  | failed why last =>
      simp only [execute, hboot]
      refine ⟨fun _ => ⟨fun p hp _ => hp, fun key m hfailed => ?_⟩, fun _ => trivial⟩
      exact absurd (hboot.trans hfailed) (Machine.boot_ne_missingJump config source sink key m)

/-- The code `+]` with no jumps at all misses one after a step; with a jump that leads
back before the start, the run comes to the same machine. -/
theorem execute_jumps_taken_restart :
    execute 3 { tapeSize := .number 1 } ⟨[.increment, .loopClose].toArray, .empty⟩
        (Source.ofBytes []) Sink.newBuffer =
      .failed (.breakdown (.missingJump 1))
        ⟨⟨#[1], 0, 1, 1⟩, Source.ofBytes [], Sink.newBuffer⟩ ∧
      ∃ k : Nat, Machine.Reached { tapeSize := .number 1 }
        ⟨[.increment, .loopClose].toArray, JumpTable.empty.insert 1 (-1)⟩
        (Source.ofBytes []) Sink.newBuffer k
        ⟨⟨#[1], 0, 1, 1⟩, Source.ofBytes [], Sink.newBuffer⟩ := by
  have hnone : ∀ i target, JumpTable.empty.target? i ≠ some target := by
    intro i target htarget
    rw [JumpTable.target?_empty] at htarget
    cases htarget
  have hextends : JumpTable.empty.Extends [.increment, .loopClose]
      (JumpTable.empty.insert 1 (-1)) :=
    fun i target _ htarget => absurd htarget (hnone i target)
  have hfailed : execute 3 { tapeSize := .number 1 }
      ⟨[.increment, .loopClose].toArray, .empty⟩ (Source.ofBytes []) Sink.newBuffer =
        .failed (.breakdown (.missingJump 1))
          ⟨⟨#[1], 0, 1, 1⟩, Source.ofBytes [], Sink.newBuffer⟩ := rfl
  obtain ⟨-, k, -, -, -, hreached⟩ :=
    ((execute_jumps_taken _ _ (fun i target h => absurd h (hnone i target)) _ _ 3).1
      hextends).2 _ _ hfailed
  exact ⟨hfailed, k, hreached⟩

end Execute

end TapeLang
