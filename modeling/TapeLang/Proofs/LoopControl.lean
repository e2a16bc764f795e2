import Mathlib.Tactic
import TapeLang.Proofs.BracketSearch
import TapeLang.Proofs.MachineRuns

/-!
# How control passes through loops

**Input.** Code with the table that `resolve` gives, and any configuration,
source and sink.
**Results.** `Machine.passage_of_step` says behind which instruction a step leads,
and on which cell.  So behind a closing bracket the current cell is zero and
behind an opening one it is not, and a step leads into a loop from its own
opening bracket only.  `execute_loop_control` states both of whole runs: a loop
that stands at the beginning of the code or right behind another loop is never
entered.
-/

namespace TapeLang

universe u v

variable {σ : Type u} {τ : Type v}

/-- Behind a closing bracket the current cell is zero, and behind an opening one it
is not. -/
def State.FitsLoops (code : List Instruction) (s : State) : Prop :=
  ∀ i : Nat, s.pc = i + 1 →
    (code[i]? = some .loopClose → s.cell? = some 0) ∧
      (code[i]? = some .loopOpen → ∃ value, s.cell? = some value ∧ value ≠ 0)

/-- The next instruction stands behind index `a`, but not behind index `b`. -/
def State.Inside (a b : Nat) (s : State) : Prop :=
  a < s.pc ∧ s.pc ≤ b

/-- How a step leads from the instruction at one index behind the instruction at
another: on from an instruction that is no bracket, through a bracket that does not
jump, or behind the partner of one that does. -/
inductive Machine.Passage (code : List Instruction) (jumps : JumpTable)
    (m next : Machine σ τ) (i : Nat) : Nat → Prop
  | plain {x : Instruction}
      (hfetch : code[i]? = some x)
      (hopen : x ≠ .loopOpen)
      (hclose : x ≠ .loopClose) :
      Machine.Passage code jumps m next i i
  | enter {value : UInt8}
      (hfetch : code[i]? = some .loopOpen)
      (hcell : m.state.cell? = some value)
      (hvalue : value ≠ 0)
      (hkept : next.state.cell? = m.state.cell?) :
      Machine.Passage code jumps m next i i
  | leave
      (hfetch : code[i]? = some .loopClose)
      (hcell : m.state.cell? = some 0)
      (hkept : next.state.cell? = m.state.cell?) :
      Machine.Passage code jumps m next i i
  | skip {b : Nat}
      (hclosing : code[b]? = some .loopClose)
      (hpartners : Loop.Partners jumps i b)
      (hcell : m.state.cell? = some 0)
      (hkept : next.state.cell? = m.state.cell?) :
      Machine.Passage code jumps m next i b
  | back {a : Nat} {value : UInt8}
      (hopening : code[a]? = some .loopOpen)
      (hpartners : Loop.Partners jumps a i)
      (hcell : m.state.cell? = some value)
      (hvalue : value ≠ 0)
      (hkept : next.state.cell? = m.state.cell?) :
      Machine.Passage code jumps m next i a

namespace Machine

section Dispatch

variable {m next : Machine σ τ} {config : Config} {program : Program}

theorem pc_of_store {value : Int} (h : m.store value = .running next) :
    next.state.pc = m.state.pc + 1 := by
  rw [store] at h
  split at h
  · cases h
  · cases h
    rfl

theorem pc_of_add {value : Int} (h : m.add value = .running next) :
    next.state.pc = m.state.pc + 1 := by
  rw [add] at h
  split at h
  · cases h
  · cases h
    rfl

theorem pc_of_read [ByteSource σ] (h : m.read config = .running next) :
    next.state.pc = m.state.pc + 1 := by
  rw [read] at h
  split at h
  · have hpc := pc_of_store h
    exact hpc
  · cases heof : config.eof with
    | error =>
        rw [heof] at h
        cases h
    | zero =>
        rw [heof] at h
        have hpc := pc_of_store h
        exact hpc
    | unchanged =>
        rw [heof] at h
        cases h
        rfl

/-- An instruction that is no bracket leads to the one after it. -/
theorem pc_of_dispatch [ByteSource σ] [ByteSink τ] {jumps : JumpTable} {x : Instruction}
    (hopen : x ≠ .loopOpen) (hclose : x ≠ .loopClose)
    (h : m.dispatch config jumps x = .running next) :
    next.state.pc = m.state.pc + 1 := by
  cases x with
  | moveRight =>
      rw [dispatch, moveRight] at h
      split at h
      · cases h
      · cases h
        rfl
  | moveLeft =>
      rw [dispatch, moveLeft] at h
      split at h
      · cases h
      · cases h
        rfl
  | increment => exact pc_of_add h
  | decrement => exact pc_of_add h
  | output =>
      rw [dispatch, write] at h
      split at h
      · cases h
      · split at h
        · cases h
        · cases h
          rfl
  | input => exact pc_of_read h
  | loopOpen => exact absurd rfl hopen
  | loopClose => exact absurd rfl hclose

/-- A bracket keeps the current cell.  It leads behind the target of its jump if the
cell passes the test, and else to the next instruction. -/
theorem bracket_eq_running {jumps : JumpTable} {test : UInt8 → Bool}
    (h : m.bracket jumps test = .running next) :
    next.state.cell? = m.state.cell? ∧
      ∃ value, m.state.cell? = some value ∧
        ((test value = true ∧ ∃ target, jumps.target? m.state.pc = some target ∧
            next.state.pc = target + 1) ∨
          (test value = false ∧ next.state.pc = m.state.pc + 1)) := by
  rw [bracket] at h
  split at h
  · cases h
  · next value hcell =>
      split at h
      · next htest =>
          rw [jump] at h
          split at h
          · cases h
          · next target htarget =>
              cases h
              exact ⟨rfl, value, hcell, Or.inl ⟨htest, target, htarget, rfl⟩⟩
      · next htest =>
          cases h
          exact ⟨rfl, value, hcell, Or.inr ⟨Bool.eq_false_iff.2 htest, rfl⟩⟩

theorem dispatch_of_step [ByteSource σ] [ByteSink τ]
    (h : m.step config program = .running next) :
    ∃ x, program.fetch? m.state.pc = some x ∧
      m.dispatch config program.jumps x = .running next := by
  rw [step] at h
  split at h
  · split at h
    · cases h
    · split at h
      · cases h
      · next x hfetch => exact ⟨x, hfetch, h⟩
  · cases h

end Dispatch

section Step

variable {config : Config} {code : List Instruction} {jumps : JumpTable}
variable {m next : Machine σ τ} {i : Nat}

/-- A step from an instruction of accepted code is one of the passages. -/
theorem passage_of_step [ByteSource σ] [ByteSink τ]
    (hresolve : Loop.resolve code = .ok jumps) (hi : m.state.pc = i)
    (h : m.step config ⟨code.toArray, jumps⟩ = .running next) :
    ∃ j : Nat, next.state.pc = j + 1 ∧ m.Passage code jumps next i j := by
  obtain ⟨x, hfetch, hdispatch⟩ := dispatch_of_step h
  rw [hi, Program.fetch?_mk_toArray] at hfetch
  by_cases hopen : x = .loopOpen
  · subst hopen
    obtain ⟨hkept, value, hcell, ⟨htest, target, htarget, hpc⟩ | ⟨htest, hpc⟩⟩ :=
      bracket_eq_running hdispatch
    · obtain rfl : value = 0 := by simpa using htest
      obtain ⟨b, body, hencloses, hpartners⟩ :=
        Loop.exists_encloses_of_loopOpen hresolve hfetch
      rw [hi, hpartners.1, Option.some.injEq] at htarget
      rw [← htarget] at hpc
      exact ⟨b, hpc, .skip hencloses.getElem?_closing hpartners hcell hkept⟩
    · rw [hi] at hpc
      exact ⟨i, hpc, .enter hfetch hcell (by simpa using htest) hkept⟩
  by_cases hclose : x = .loopClose
  · subst hclose
    obtain ⟨hkept, value, hcell, ⟨htest, target, htarget, hpc⟩ | ⟨htest, hpc⟩⟩ :=
      bracket_eq_running hdispatch
    · obtain ⟨a, body, hencloses, hpartners⟩ :=
        Loop.exists_encloses_of_loopClose hresolve hfetch
      rw [hi, hpartners.2, Option.some.injEq] at htarget
      rw [← htarget] at hpc
      exact ⟨a, hpc,
        .back hencloses.getElem?_opening hpartners hcell (by simpa using htest) hkept⟩
    · obtain rfl : value = 0 := by simpa using htest
      rw [hi] at hpc
      exact ⟨i, hpc, .leave hfetch hcell hkept⟩
  · have hpc := pc_of_dispatch hopen hclose hdispatch
    rw [hi] at hpc
    exact ⟨i, hpc, .plain hfetch hopen hclose⟩

/-- Every passage ends on a cell that fits the bracket behind which it leads. -/
theorem Passage.fitsLoops {j : Nat} (h : m.Passage code jumps next i j)
    (hj : next.state.pc = j + 1) :
    next.state.FitsLoops code := by
  intro k hk
  obtain rfl : j = k := by omega
  cases h with
  | plain hfetch hopen hclose =>
      rw [hfetch, Option.some.injEq, Option.some.injEq]
      exact ⟨fun hx => absurd hx hclose, fun hx => absurd hx hopen⟩
  | enter hfetch hcell hvalue hkept =>
      rw [hfetch, hkept, hcell]
      exact ⟨fun hx => (by cases hx), fun _ => ⟨_, rfl, hvalue⟩⟩
  | leave hfetch hcell hkept =>
      rw [hfetch, hkept, hcell]
      exact ⟨fun _ => rfl, fun hx => (by cases hx)⟩
  | skip hclosing hpartners hcell hkept =>
      rw [hclosing, hkept, hcell]
      exact ⟨fun _ => rfl, fun hx => (by cases hx)⟩
  | back hopening hpartners hcell hvalue hkept =>
      rw [hopening, hkept, hcell]
      exact ⟨fun hx => (by cases hx), fun _ => ⟨_, rfl, hvalue⟩⟩

/-- A jump that leads forward begins at an opening bracket. -/
theorem getElem?_of_target? (hresolve : Loop.resolve code = .ok jumps) {a b : Nat}
    (hab : a < b) (hloop : jumps.target? a = some (b : Int)) :
    code[a]? = some .loopOpen := by
  obtain ⟨a', b', body, hencloses, -, hsides, -⟩ :=
    Loop.exists_encloses_of_target? hresolve hloop
  have hlt := hencloses.lt
  obtain rfl : a = a' := by omega
  exact hencloses.getElem?_opening

/-- A passage leads into a loop through its opening bracket, or from within. -/
theorem Passage.enters (hresolve : Loop.resolve code = .ok jumps) {j a b : Nat}
    (h : m.Passage code jumps next i j) (hab : a < b)
    (hloop : jumps.target? a = some (b : Int)) (hinto : a ≤ j ∧ j < b)
    (hfrom : ¬ (a < i ∧ i ≤ b)) :
    i = a ∧ j = a ∧ ∃ value, m.state.cell? = some value ∧ value ≠ 0 := by
  have hopen := getElem?_of_target? hresolve hab hloop
  cases h with
  | plain hfetch hplain =>
      obtain rfl : i = a := by omega
      rw [hopen, Option.some.injEq] at hfetch
      exact absurd hfetch.symm hplain
  | enter hfetch hcell hvalue hkept =>
      obtain rfl : i = a := by omega
      exact ⟨rfl, rfl, _, hcell, hvalue⟩
  | leave hfetch =>
      obtain rfl : i = a := by omega
      rw [hopen] at hfetch
      cases hfetch
  | skip hclosing hpartners =>
      have hne : j ≠ a := by
        rintro rfl
        rw [hopen] at hclosing
        cases hclosing
      have hinside := Loop.between_of_target? hresolve hloop hpartners.2 (by omega) (by omega)
      omega
  | back hopening hpartners =>
      rcases Nat.eq_or_lt_of_le hinto.1 with rfl | hlt
      · have hpartner := hpartners.1.symm.trans hloop
        rw [Option.some.injEq] at hpartner
        omega
      · have hinside :=
          Loop.between_of_target? hresolve hloop hpartners.1 (by omega) (by omega)
        omega

end Step

section Reached

variable [ByteSource σ] [ByteSink τ] {config : Config}
variable {source : σ} {sink : τ} {k : Nat} {m : Machine σ τ}

omit [ByteSource σ] [ByteSink τ] in
/-- A run starts at the first instruction, on a cell that is zero. -/
theorem start_of_boot (h : boot config source sink = .running m) :
    m.state.pc = 0 ∧ ∀ value, m.state.cell? = some value → value = 0 := by
  rw [boot] at h
  split at h
  · cases h
  · cases h
    refine ⟨rfl, fun value hvalue => ?_⟩
    obtain ⟨a, -, rfl⟩ := Option.map_eq_some_iff.1 hvalue
    simp [State.valueAt, State.blank, Array.getD]

variable {code : List Instruction} {jumps : JumpTable}

/-- A run is at its start, or behind an instruction on a cell that fits it. -/
theorem Reached.start_or_fitsLoops (hresolve : Loop.resolve code = .ok jumps)
    (h : Reached config ⟨code.toArray, jumps⟩ source sink k m) :
    (m.state.pc = 0 ∧ ∀ value, m.state.cell? = some value → value = 0) ∨
      ∃ i : Nat, m.state.pc = i + 1 ∧ m.state.FitsLoops code := by
  refine h.induction (P := fun m =>
    (m.state.pc = 0 ∧ ∀ value, m.state.cell? = some value → value = 0) ∨
      ∃ i : Nat, m.state.pc = i + 1 ∧ m.state.FitsLoops code)
    (fun start hboot => Or.inl (start_of_boot hboot)) ?_
  intro n before next hbefore hplace hstep
  obtain ⟨i, hi⟩ : ∃ i : Nat, before.state.pc = i := by
    rcases hplace with ⟨hpc, -⟩ | ⟨i, hpc, -⟩
    · exact ⟨0, hpc⟩
    · exact ⟨i + 1, hpc⟩
  obtain ⟨j, hj, hpassage⟩ := passage_of_step hresolve hi hstep
  exact Or.inr ⟨j, hj, hpassage.fitsLoops hj⟩

theorem Reached.fitsLoops (hresolve : Loop.resolve code = .ok jumps)
    (h : Reached config ⟨code.toArray, jumps⟩ source sink k m) :
    m.state.FitsLoops code := by
  rcases h.start_or_fitsLoops hresolve with ⟨hpc, -⟩ | ⟨i, -, hfits⟩
  · intro i hi
    omega
  · exact hfits

/-- A run enters a loop through its opening bracket, on a cell that is not zero. -/
theorem Reached.enters (hresolve : Loop.resolve code = .ok jumps)
    (h : Reached config ⟨code.toArray, jumps⟩ source sink k m) {next : Machine σ τ}
    (hstep : m.step config ⟨code.toArray, jumps⟩ = .running next) {a b : Nat} (hab : a < b)
    (hloop : jumps.target? a = some (b : Int)) (hinto : next.state.Inside a b)
    (hfrom : ¬ m.state.Inside a b) :
    m.state.pc = a ∧ next.state.pc = a + 1 ∧
      ∃ value, m.state.cell? = some value ∧ value ≠ 0 := by
  obtain ⟨i, hi⟩ : ∃ i : Nat, m.state.pc = i := by
    rcases h.start_or_fitsLoops hresolve with ⟨hpc, -⟩ | ⟨i, hpc, -⟩
    · exact ⟨0, hpc⟩
    · exact ⟨i + 1, hpc⟩
  obtain ⟨j, hj, hpassage⟩ := passage_of_step hresolve hi hstep
  rw [State.Inside, hj] at hinto
  rw [State.Inside, hi] at hfrom
  obtain ⟨rfl, rfl, hcell⟩ :=
    hpassage.enters hresolve hab hloop (by omega) (by exact_mod_cast hfrom)
  exact ⟨hi, hj, hcell⟩

/-- A run does not enter a loop at the beginning of the code or behind another one:
there the current cell is zero. -/
theorem Reached.not_inside (hresolve : Loop.resolve code = .ok jumps)
    (h : Reached config ⟨code.toArray, jumps⟩ source sink k m) {a b : Nat} (hab : a < b)
    (hloop : jumps.target? a = some (b : Int))
    (hplace : a = 0 ∨ ∃ i, a = i + 1 ∧ code[i]? = some .loopClose) :
    ¬ m.state.Inside a b := by
  refine h.induction (P := fun m => ¬ m.state.Inside a b) (fun start hboot hinside => ?_) ?_
  · have hpc := (start_of_boot hboot).1
    rw [State.Inside] at hinside
    omega
  · intro n before next hbefore houtside hstep hinside
    obtain ⟨hpc, -, value, hcell, hvalue⟩ :=
      hbefore.enters hresolve hstep hab hloop hinside houtside
    rcases hbefore.start_or_fitsLoops hresolve with ⟨-, hzero⟩ | ⟨j, hj, hfits⟩
    · exact hvalue (hzero value hcell)
    · rcases hplace with rfl | ⟨i, rfl, hclose⟩
      · omega
      · have hzero := (hfits i (by omega)).1 hclose
        rw [hcell, Option.some.injEq] at hzero
        exact hvalue hzero

end Reached

end Machine

section Execute

variable [ByteSource σ] [ByteSink τ]

/-- **Control of loops.**  In every state that a run of accepted code reaches, and in
the state in which it halts, the current cell is zero behind a closing bracket and
not zero behind an opening one.  A step that leads into a loop from outside passes
its opening bracket on a cell that is not zero.  So a loop at the beginning of the
code or right behind a closing bracket is never entered. -/
theorem execute_loop_control {code : List Instruction} {jumps : JumpTable}
    (hresolve : Loop.resolve code = .ok jumps) (config : Config) (source : σ) (sink : τ) :
    (∀ k m, Machine.Reached config ⟨code.toArray, jumps⟩ source sink k m →
      m.state.FitsLoops code)
      ∧
    (∀ patience final,
      execute patience config ⟨code.toArray, jumps⟩ source sink = .halted final →
      final.state.FitsLoops code)
      ∧
    (∀ a b : Nat, a < b → jumps.target? a = some (b : Int) →
      (∀ k m next, Machine.Reached config ⟨code.toArray, jumps⟩ source sink k m →
        m.step config ⟨code.toArray, jumps⟩ = .running next →
        next.state.Inside a b → ¬ m.state.Inside a b →
        m.state.pc = a ∧ next.state.pc = a + 1 ∧
          ∃ value, m.state.cell? = some value ∧ value ≠ 0)
        ∧
      (a = 0 ∨ (∃ i, a = i + 1 ∧ code[i]? = some .loopClose) →
        ∀ k m, Machine.Reached config ⟨code.toArray, jumps⟩ source sink k m →
          ¬ m.state.Inside a b)) := by
  refine ⟨fun k m h => h.fitsLoops hresolve, ?_, fun a b hab hloop => ⟨?_, ?_⟩⟩
  · intro patience final hhalted
    obtain ⟨k, h⟩ := exists_reached_of_execute_halted hhalted
    exact h.fitsLoops hresolve
  · intro k m next h hstep hinto hfrom
    exact h.enters hresolve hstep hab hloop hinto hfrom
  · intro hplace k m h
    exact h.not_inside hresolve hab hloop hplace

/-- The code `+[-][.]`: the second loop stands right behind the first, and nothing is
ever written. -/
theorem execute_loop_control_second :
    Loop.resolve [.increment, .loopOpen, .decrement, .loopClose, .loopOpen, .output,
        .loopClose] = .ok (.ofPairs [(4, 6), (1, 3)]) ∧
      ∀ k m,
        Machine.Reached { tapeSize := .number 1 }
            ⟨[.increment, .loopOpen, .decrement, .loopClose, .loopOpen, .output,
              .loopClose].toArray, .ofPairs [(4, 6), (1, 3)]⟩
            (Source.ofBytes []) Sink.newBuffer k m →
          ¬ m.state.Inside 4 6 := by
  have hresolve : Loop.resolve [.increment, .loopOpen, .decrement, .loopClose, .loopOpen,
      .output, .loopClose] = .ok (.ofPairs [(4, 6), (1, 3)]) := rfl
  have hloops := (execute_loop_control hresolve { tapeSize := .number 1 }
    (Source.ofBytes []) Sink.newBuffer).2.2 4 6 (by decide) rfl
  exact ⟨hresolve, hloops.2 (Or.inr ⟨3, rfl, rfl⟩)⟩

end Execute

end TapeLang
