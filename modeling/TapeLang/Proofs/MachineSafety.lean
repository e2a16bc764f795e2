import Mathlib.Tactic
import TapeLang.Proofs.JumpLayout
import TapeLang.Proofs.MachineRuns
import TapeLang.Proofs.TapeStore

/-!
# Safety of whole runs

**Input.** A configuration that was checked, any code, a jump table whose targets
are not below minus one, any source and a sink of the library.
**Results.** `execute_safe`: in every state that a run reaches the tape has its
size, the pointer is on the tape, the next instruction does not lie before the
code and the budget is not overrun.  So a run fails in four ways only, and in
three if the table is the one that `resolve` gives.
-/

namespace TapeLang

universe u v

variable {size : Nat} {σ : Type u} {τ : Type v} [ByteSource σ] [ByteSink τ]

/-- The sink after bytes were written to it. -/
def ByteSink.putAll {τ : Type v} [ByteSink τ] (sink : τ) (bytes : List UInt8) : τ :=
  bytes.foldl (fun sink b => ByteSink.put sink (b.toNat : Int)) sink

/-- A bracket that jumps is next: an opening one on a zero cell, or a closing one
on any other. -/
def Machine.TakesJump {σ : Type u} {τ : Type v} (program : Program) (m : Machine σ τ) :
    Prop :=
  (program.fetch? m.state.pc = some .loopOpen ∧ m.state.cell? = some 0) ∨
    (program.fetch? m.state.pc = some .loopClose ∧
      ∃ value, m.state.cell? = some value ∧ value ≠ 0)

/-- The ways in which a run with a checked configuration may fail. -/
inductive Failure.Expected {σ : Type u} {τ : Type v} (config : Config)
    (program : Program) (m : Machine σ τ) : Failure → Prop
  | stepLimit {limit : Setting}
      (hlimit : config.maxSteps = some limit)
      (hspent : limit.value ≤ m.state.steps) :
      Failure.Expected config program m (.fault (.stepLimitExceeded limit m.state.pc))
  | pointer {pointer : Int}
      (hpointer : pointer = -1 ∨ pointer = config.tapeSize.value) :
      Failure.Expected config program m
        (.fault (.pointerOutOfBounds pointer config.tapeSize m.state.pc))
  | input (heof : config.eof = .error) :
      Failure.Expected config program m (.fault (.inputExhausted m.state.pc))
  | missingJump
      (hjump : m.TakesJump program)
      (htarget : program.jumps.target? m.state.pc = none) :
      Failure.Expected config program m (.breakdown (.missingJump m.state.pc))

namespace Config

theorem one_le_of_positive {tooSmall : Setting → ConfigFault} {value : Json}
    {setting : Setting} (h : positive tooSmall value = .ok setting) :
    1 ≤ setting.value := by
  rw [positive] at h
  split at h
  · cases h
  · split at h
    · cases h
    · cases h
      omega

theorem one_le_of_budgetOf {value : Json} {limit : Setting}
    (h : budgetOf value = .ok (some limit)) :
    1 ≤ limit.value := by
  rw [budgetOf.eq_def] at h
  split at h
  · cases h
  · cases hpositive : positive .maxStepsTooSmall value with
    | error fault =>
        rw [hpositive] at h
        cases h
    | ok setting =>
        rw [hpositive] at h
        cases h
        exact one_le_of_positive hpositive

/-- A checked configuration has at least one cell and allows at least one step. -/
theorem bounds_of_ofFields {tapeSize eof maxSteps : Option Json} {config : Config}
    (h : ofFields tapeSize eof maxSteps = .ok config) :
    1 ≤ config.tapeSize.value ∧ ∀ limit ∈ config.maxSteps, 1 ≤ limit.value := by
  simp only [ofFields, bind, Except.bind, pure, Except.pure] at h
  split at h
  · cases h
  · split at h
    · cases h
    · next size hsize =>
        split at h
        · cases h
        · next budget hbudget =>
            cases h
            refine ⟨one_le_of_positive hsize, fun limit hlimit => ?_⟩
            obtain rfl : budget = some limit := hlimit
            exact one_le_of_budgetOf hbudget

theorem spent?_eq_some_iff {config : Config} {steps : Int} {limit : Setting} :
    config.spent? steps = some limit ↔
      config.maxSteps = some limit ∧ limit.value ≤ steps := by
  simp [spent?, Option.filter_eq_some_iff]

end Config

namespace Primitive

variable {config : Config} {pc : Int} {s : Store size σ τ} {p : Primitive}

/-- A primitive operation writes bytes only. -/
theorem sink_of_effect_done {next : Store size σ τ}
    (h : p.effect config pc s = .done next) :
    ∃ bytes, next.sink = ByteSink.putAll s.sink bytes := by
  cases p with
  | moveRight =>
      rw [effect] at h
      split at h
      · cases h
        exact ⟨[], rfl⟩
      · cases h
  | moveLeft =>
      rw [effect] at h
      split at h
      · cases h
      · cases h
        exact ⟨[], rfl⟩
  | increment =>
      cases h
      exact ⟨[], rfl⟩
  | decrement =>
      cases h
      exact ⟨[], rfl⟩
  | output =>
      rw [effect] at h
      split at h
      · cases h
      · cases h
        exact ⟨[s.cell], rfl⟩
  | input =>
      rw [effect] at h
      split at h
      · cases h
        exact ⟨[], rfl⟩
      · cases h
      · cases h
        exact ⟨[], rfl⟩
      · cases h
        exact ⟨[], rfl⟩

/-- A primitive operation fails at an edge of the tape, at the end of input, or
because the sink does not take the current cell. -/
theorem effect_failed {why : Failure} {left : Store size σ τ}
    (hsize : config.tapeSize.value = size)
    (h : p.effect config pc s = .failed why left) :
    (∃ pointer, why = .fault (.pointerOutOfBounds pointer config.tapeSize pc) ∧
        (pointer = -1 ∨ pointer = config.tapeSize.value)) ∨
      (why = .fault (.inputExhausted pc) ∧ config.eof = .error) ∨
      ∃ refusal, ByteSink.refusal? s.sink s.cell.toNat = some refusal := by
  cases p with
  | moveRight =>
      rw [effect] at h
      split at h
      · cases h
      · cases h
        refine Or.inl ⟨_, rfl, Or.inr ?_⟩
        have := s.pointer.isLt
        omega
  | moveLeft =>
      rw [effect] at h
      split at h
      · cases h
        exact Or.inl ⟨_, rfl, Or.inl rfl⟩
      · cases h
  | increment => cases h
  | decrement => cases h
  | output =>
      rw [effect] at h
      split at h
      · next why' hrefusal => exact Or.inr (Or.inr ⟨_, hrefusal⟩)
      · cases h
  | input =>
      rw [effect] at h
      split at h
      · cases h
      · next heof =>
          cases h
          exact Or.inr (Or.inl ⟨rfl, heof⟩)
      · cases h
      · cases h

end Primitive

/-- What holds of every machine that a run reaches: its pointer is on a tape of
`size` cells, it is at or after the first instruction, it has not overrun its
budget, and nothing but bytes went to its sink. -/
structure Machine.OnTrack (config : Config) (size : Nat) (sink : τ) (m : Machine σ τ) :
    Prop where
  placed : ∃ (s : Store size σ τ) (pc : Nat) (steps : Int), m = s.machine pc steps
  budget : ∀ limit ∈ config.maxSteps, m.state.steps ≤ limit.value
  written : ∃ bytes, m.sink = ByteSink.putAll sink bytes

namespace Machine

variable {config : Config} {program : Program} {sink : τ}

omit [ByteSource σ] [ByteSink τ] in
theorem takesJump_machine {s : Store size σ τ} {pc : Nat} {steps : Int}
    (h : s.Jumps program pc) :
    (s.machine pc steps).TakesJump program := by
  rcases h with ⟨hfetch, hzero⟩ | ⟨hfetch, hcell⟩
  · exact Or.inl ⟨hfetch, by rw [s.cell?_machine, hzero]⟩
  · exact Or.inr ⟨hfetch, s.cell, s.cell?_machine pc steps, hcell⟩

/-- A step that finds budget left does not overrun it. -/
theorem budget_of_spent? {steps : Int} (hspent : config.spent? steps = none) :
    ∀ limit ∈ config.maxSteps, steps + 1 ≤ limit.value := by
  intro limit hlimit
  by_contra hover
  have hsome := Config.spent?_eq_some_iff.2
    ⟨hlimit, show limit.value ≤ steps by omega⟩
  rw [hspent] at hsome
  cases hsome

theorem putAll_append (sink : τ) (first second : List UInt8) :
    ByteSink.putAll sink (first ++ second) =
      ByteSink.putAll (ByteSink.putAll sink first) second := by
  simp [ByteSink.putAll]

/-- The step of a machine on track is a step of a store. -/
theorem OnTrack.stepCase (hsize : config.tapeSize.value = size) {m : Machine σ τ}
    (h : OnTrack config size sink m) {result : Progress σ τ}
    (hstep : m.step config program = result) :
    ∃ (s : Store size σ τ) (pc : Nat) (steps : Int),
      m = s.machine pc steps ∧ s.StepCase config program pc steps result := by
  obtain ⟨s, pc, steps, rfl⟩ := h.placed
  subst hstep
  exact ⟨s, pc, steps, rfl, Store.stepCase hsize program s pc steps⟩

theorem OnTrack.step (hsize : config.tapeSize.value = size)
    (htargets : ∀ i target, program.jumps.target? i = some target → -1 ≤ target)
    {m next : Machine σ τ} (h : OnTrack config size sink m)
    (hstep : m.step config program = .running next) :
    OnTrack config size sink next := by
  obtain ⟨s, pc, steps, rfl, hcase⟩ := h.stepCase hsize hstep
  obtain ⟨bytes, hbytes⟩ := h.written
  cases hcase with
  | @primitive p last hspent hfetch heffect =>
      obtain ⟨more, hmore⟩ := Primitive.sink_of_effect_done heffect
      have hwritten : last.sink = ByteSink.putAll sink (bytes ++ more) := by
        rw [hmore, putAll_append, ← hbytes]
        rfl
      exact ⟨⟨last, pc + 1, _, rfl⟩, budget_of_spent? hspent, _, hwritten⟩
  | @jump target hspent hjumps htarget =>
      have hge := htargets _ _ htarget
      obtain ⟨place, hplace⟩ := Int.eq_ofNat_of_zero_le (show 0 ≤ target + 1 by omega)
      rw [hplace]
      exact ⟨⟨s, place, _, rfl⟩, budget_of_spent? hspent, bytes, hbytes⟩
  | pass hspent hpc hjumps =>
      exact ⟨⟨s, pc + 1, _, rfl⟩, budget_of_spent? hspent, bytes, hbytes⟩

/-- A machine on track fails in an expected way, if its sink takes bytes. -/
theorem OnTrack.step_failed (hsize : config.tapeSize.value = size)
    (hsink : ∀ (sink : τ) (value : Int), isByte value = true →
      ByteSink.refusal? sink value = none)
    {m last : Machine σ τ} {why : Failure} (h : OnTrack config size sink m)
    (hstep : m.step config program = .failed why last) :
    Failure.Expected config program last why := by
  obtain ⟨s, pc, steps, rfl, hcase⟩ := h.stepCase hsize hstep
  cases hcase with
  | spent hpc hspent =>
      obtain ⟨hlimit, hle⟩ := Config.spent?_eq_some_iff.1 hspent
      exact .stepLimit hlimit hle
  | primitiveFails hspent hfetch heffect =>
      rcases Primitive.effect_failed hsize heffect with
        ⟨pointer, rfl, hpointer⟩ | ⟨rfl, heof⟩ | ⟨refusal, hrefusal⟩
      · exact .pointer hpointer
      · exact .input heof
      · rw [hsink] at hrefusal
        · cases hrefusal
        · have := s.cell.toNat_lt
          simp only [isByte, decide_eq_true_eq]
          omega
  | missing hspent hjumps htarget =>
      exact .missingJump (takesJump_machine hjumps) htarget

section Resolved

variable {code : List Instruction} {jumps : JumpTable}

omit [ByteSource σ] [ByteSink τ] in
/-- With the table of the code, no jump that is taken is missing. -/
theorem exists_target_of_takesJump (hresolve : Loop.resolve code = .ok jumps)
    {m : Machine σ τ} {pc : Nat} (hpc : m.state.pc = pc)
    (hjump : m.TakesJump ⟨code.toArray, jumps⟩) :
    ∃ target : Nat, jumps.target? pc = some (target : Int) ∧ target < code.length := by
  refine Loop.exists_target_of_resolve hresolve ?_
  rw [TakesJump, hpc, Program.fetch?_mk_toArray] at hjump
  rcases hjump with ⟨hopen, -⟩ | ⟨hclose, -⟩
  · exact Or.inl hopen
  · exact Or.inr hclose

/-- With the table of the code, no step leaves the code but past its end. -/
theorem OnTrack.step_pc_le (hsize : config.tapeSize.value = size)
    (hresolve : Loop.resolve code = .ok jumps) {m next : Machine σ τ}
    (h : OnTrack config size sink m)
    (hstep : m.step config ⟨code.toArray, jumps⟩ = .running next) :
    next.state.pc ≤ code.length := by
  have hlength : (Program.mk code.toArray jumps).length = code.length := by
    simp [Program.length]
  obtain ⟨s, pc, steps, rfl, hcase⟩ := h.stepCase hsize hstep
  cases hcase with
  | primitive hspent hfetch heffect =>
      have hpc := Program.lt_length_of_fetch? hfetch
      rw [Store.pc_machine]
      omega
  | jump hspent hjumps htarget =>
      obtain ⟨place, hplace, hlt⟩ := exists_target_of_takesJump hresolve
        (s.pc_machine pc steps) (takesJump_machine hjumps)
      obtain rfl := Option.some.inj (hplace.symm.trans htarget)
      rw [Store.pc_machine]
      omega
  | pass hspent hpc hjumps =>
      rw [Store.pc_machine]
      omega

end Resolved

section Reached

variable {source : σ}

/-- Every machine that a run reaches is on track. -/
theorem Reached.onTrack (hsize : config.tapeSize.value = size) (hpos : 0 < size)
    (hbudget : ∀ limit ∈ config.maxSteps, 1 ≤ limit.value)
    (htargets : ∀ i target, program.jumps.target? i = some target → -1 ≤ target)
    {k : Nat} {m : Machine σ τ} (h : Reached config program source sink k m) :
    OnTrack config size sink m := by
  obtain ⟨start, hboot, hrun⟩ := h
  obtain rfl := Store.eq_of_boot hsize hpos hboot
  refine run_invariant (fun _ _ hm hstep => hm.step hsize htargets hstep) ?_ hrun
  refine ⟨⟨_, 0, 0, rfl⟩, fun limit hlimit => ?_, [], rfl⟩
  have := hbudget limit hlimit
  rw [Store.steps_machine]
  omega

/-- With the table of the code, a run stays in the code or halts right after it. -/
theorem Reached.pc_le (hsize : config.tapeSize.value = size) (hpos : 0 < size)
    (hbudget : ∀ limit ∈ config.maxSteps, 1 ≤ limit.value)
    {code : List Instruction} {jumps : JumpTable}
    (hresolve : Loop.resolve code = .ok jumps) {k : Nat} {m : Machine σ τ}
    (h : Reached config ⟨code.toArray, jumps⟩ source sink k m) :
    m.state.pc ≤ code.length := by
  obtain ⟨start, hboot, hrun⟩ := h
  cases k with
  | zero =>
      obtain rfl := Progress.running.inj hrun
      obtain rfl := Store.eq_of_boot hsize hpos hboot
      rw [Store.pc_machine]
      omega
  | succ k =>
      obtain ⟨before, hbefore, hstep⟩ := exists_step_of_run_succ hrun
      have htrack : OnTrack config size sink before :=
        Reached.onTrack hsize hpos hbudget
          (fun _ _ htarget => (Loop.nonneg_of_resolve hresolve htarget).trans' (by omega))
          ⟨start, hboot, hbefore⟩
      exact htrack.step_pc_le hsize hresolve hstep

end Reached

end Machine

section Execute

/-- **Machine safety.**  With a checked configuration whose tape can be laid out
and a table without targets below minus one, every state that a run reaches is in
bounds, nothing but bytes goes to the sink, and a run fails in expected ways only.
The table that `resolve` gives has no such targets, keeps the run in the code and
lacks no jump that is taken. -/
theorem execute_safe {tapeSize eof maxSteps : Option Json} {config : Config}
    (hconfig : Config.ofFields tapeSize eof maxSteps = .ok config)
    (hfits : tapeBreakdown? config.tapeSize.value = none)
    (code : List Instruction) (jumps : JumpTable) (source : σ) (sink : Sink) :
    ((∀ i target, jumps.target? i = some target → -1 ≤ target) →
      (∀ k m, Machine.Reached config ⟨code.toArray, jumps⟩ source sink k m →
        m.state.cells.size = config.tapeSize.value ∧
          (∀ value ∈ m.state.cells, value.toNat ≤ 255) ∧
          0 ≤ m.state.pointer ∧ m.state.pointer < config.tapeSize.value ∧
          0 ≤ m.state.pc ∧
          (∀ limit ∈ config.maxSteps, m.state.steps ≤ limit.value) ∧
          ∃ bytes, m.sink = ByteSink.putAll sink bytes)
        ∧
      (∀ patience why m,
        execute patience config ⟨code.toArray, jumps⟩ source sink = .failed why m →
          Failure.Expected config ⟨code.toArray, jumps⟩ m why))
      ∧
    (Loop.resolve code = .ok jumps →
      (∀ i target, jumps.target? i = some target → -1 ≤ target)
        ∧
      (∀ k m, Machine.Reached config ⟨code.toArray, jumps⟩ source sink k m →
        m.state.pc ≤ code.length)
        ∧
      (∀ patience i m,
        execute patience config ⟨code.toArray, jumps⟩ source sink ≠
          .failed (.breakdown (.missingJump i)) m)) := by
  obtain ⟨hone, hbudget⟩ := Config.bounds_of_ofFields hconfig
  obtain ⟨size, hsize⟩ := Int.eq_ofNat_of_zero_le (show 0 ≤ config.tapeSize.value by omega)
  have hpos : 0 < size := by omega
  have hboot := Store.boot_eq hsize hpos (hsize ▸ hfits) source sink
  have hexpected : (∀ i target, jumps.target? i = some target → -1 ≤ target) →
      ∀ patience why m,
        execute patience config ⟨code.toArray, jumps⟩ source sink = .failed why m →
          Failure.Expected config ⟨code.toArray, jumps⟩ m why := by
    intro htargets patience why m hfailed
    obtain ⟨k, last, hreached, hstep⟩ := exists_reached_of_execute_failed hboot hfailed
    exact (hreached.onTrack hsize hpos hbudget htargets).step_failed hsize
      (fun _ _ hbyte => Sink.refusal?_of_isByte hbyte) hstep
  constructor
  · intro htargets
    refine ⟨fun k m hreached => ?_, hexpected htargets⟩
    obtain ⟨⟨s, pc, steps, rfl⟩, hlimits, hwritten⟩ :=
      hreached.onTrack hsize hpos hbudget htargets
    have hpointer := s.pointer.isLt
    refine ⟨?_, fun value _ => ?_, ?_, ?_, ?_, hlimits, hwritten⟩
    · rw [s.size_machine, hsize]
    · have := value.toNat_lt
      omega
    · rw [Store.pointer_machine]
      omega
    · rw [Store.pointer_machine, hsize]
      omega
    · rw [Store.pc_machine]
      omega
  · intro hresolve
    have htargets : ∀ i target, jumps.target? i = some target → -1 ≤ target := by
      intro i target htarget
      have := Loop.nonneg_of_resolve hresolve htarget
      omega
    refine ⟨htargets, fun k m hreached => ?_, fun patience i m hfailed => ?_⟩
    · exact hreached.pc_le hsize hpos hbudget hresolve
    · obtain ⟨k, last, hreached, hstep⟩ := exists_reached_of_execute_failed hboot hfailed
      obtain ⟨⟨s, pc, steps, rfl⟩, -, -⟩ := hreached.onTrack hsize hpos hbudget htargets
      have hpc : m.state.pc = pc := by
        rw [Machine.state_of_step_failed hstep, Store.pc_machine]
      cases hexpected htargets patience _ m hfailed with
      | missingJump hjump htarget =>
          obtain ⟨target, hsome, -⟩ :=
            Machine.exists_target_of_takesJump hresolve hpc hjump
          rw [← hpc, htarget] at hsome
          cases hsome

/-- A table that leads back before the start: the code `+>+]` moves right until it
meets the edge of the tape. -/
theorem execute_safe_restart :
    Config.ofFields none none none = .ok {} ∧
      tapeBreakdown? (Config.tapeSize {}).value = none ∧
      ∀ k m,
        Machine.Reached {}
            ⟨[.increment, .moveRight, .increment, .loopClose].toArray,
              JumpTable.empty.insert 3 (-1)⟩
            (Source.ofBytes []) Sink.newBuffer k m →
          0 ≤ m.state.pointer ∧ m.state.pointer < 30000 := by
  have htargets : ∀ i target,
      (JumpTable.empty.insert 3 (-1)).target? i = some target → -1 ≤ target := by
    intro i target htarget
    rw [JumpTable.target?_insert] at htarget
    split at htarget
    · cases htarget
      exact le_rfl
    · rw [JumpTable.target?_empty] at htarget
      cases htarget
  have hconfig : Config.ofFields none none none = .ok {} := rfl
  refine ⟨hconfig, rfl, fun k m hreached => ?_⟩
  have hsafe := ((execute_safe hconfig rfl _ _ _ _).1 htargets).1 k m hreached
  exact ⟨hsafe.2.2.1, hsafe.2.2.2.1⟩

end Execute

end TapeLang
