import Mathlib.Tactic
import TapeLang.Proofs.MachineRuns
import TapeLang.Proofs.TapeStore

/-!
# Longer tapes

**Input.** A configuration, a program, a source and a sink, none of them checked,
and two sizes of the tape, of which the first is at least one and not above the
second.
**Results.** `Store.widens_or_atEdge`: a step is the same on a tape with more
cells, unless it would move the pointer over the right edge of the shorter one.
`execute_tape_extension` follows this through whole runs.  A run that does not
fail at the right edge is the same on the longer tape, which ends in zeros; one
that does fail there is the beginning of the run on the longer tape, which goes
on.
-/

namespace TapeLang

universe u v

variable {size : Nat} {σ : Type u} {τ : Type v}

/-- The configuration with another size of the tape. -/
def Config.withTape (config : Config) (tapeSize : Setting) : Config :=
  { config with tapeSize := tapeSize }

/-- The state with more cells behind its tape, all of them zero. -/
def State.widen (extra : Nat) (s : State) : State :=
  { s with cells := s.cells ++ Array.replicate extra 0 }

/-- The failure as it is told on a tape of another size. -/
def Failure.onTape (tapeSize : Setting) : Failure → Failure
  | .fault (.pointerOutOfBounds pointer _ pc) =>
      .fault (.pointerOutOfBounds pointer tapeSize pc)
  | other => other

/-- The machine with more cells behind its tape, all of them zero. -/
def Machine.widen (extra : Nat) (m : Machine σ τ) : Machine σ τ :=
  { m with state := m.state.widen extra }

namespace Progress

/-- The same progress of the machine with more cells behind its tape, which has
another size then. -/
def widen (tapeSize : Setting) (extra : Nat) : Progress σ τ → Progress σ τ
  | .running m => .running (m.widen extra)
  | .halted m => .halted (m.widen extra)
  | .failed why m => .failed (why.onTape tapeSize) (m.widen extra)

/-- The machine stopped because its pointer would have moved to `edge`. -/
def StopsAt (edge : Int) : Progress σ τ → Prop
  | .failed (.fault (.pointerOutOfBounds pointer _ _)) _ => pointer = edge
  | _ => False

end Progress

/-- The pointer is on a tape of `size` cells. -/
def Machine.OnTape (size : Nat) (m : Machine σ τ) : Prop :=
  ∃ (s : Store size σ τ) (pc steps : Int), m = s.machine pc steps

/-- The second progress is the first one on a tape with more cells. -/
structure Progress.Widens (size : Nat) (tapeSize : Setting) (extra : Nat)
    (p wide : Progress σ τ) : Prop where
  onTape : p.machine.OnTape size
  eq_widen : wide = p.widen tapeSize extra
  inner : ¬ p.StopsAt size

namespace Store

section Widen

/-- The store with more cells behind its tape, all of them zero. -/
def widen (extra : Nat) (s : Store size σ τ) : Store (size + extra) σ τ :=
  { cells := s.cells ++ Vector.replicate extra (0 : UInt8)
    pointer := s.pointer.castAdd extra
    source := s.source
    sink := s.sink }

variable (extra : Nat) (s : Store size σ τ)

theorem machine_widen (pc steps : Int) :
    (s.widen extra).machine pc steps = (s.machine pc steps).widen extra := by
  simp [machine, widen, Machine.widen, State.widen]

theorem cell_widen : (s.widen extra).cell = s.cell := by
  simp [cell, widen]

theorem put_widen (value : UInt8) : (s.widen extra).put value = (s.put value).widen extra := by
  simp [put, widen]

end Widen

section Step

variable {config : Config} {program : Program} {tapeSize : Setting} {extra : Nat}
variable (s : Store size σ τ)

theorem widens_running (pc steps : Int) :
    Progress.Widens size tapeSize extra (.running (s.machine pc steps))
      (.running ((s.widen extra).machine pc steps)) :=
  ⟨⟨s, pc, steps, rfl⟩, by rw [machine_widen]; rfl, id⟩

theorem widens_failed (pc steps : Int) {why : Failure}
    (hinner : ¬ (Progress.failed why (s.machine pc steps)).StopsAt size) :
    Progress.Widens size tapeSize extra (.failed why (s.machine pc steps))
      (.failed (why.onTape tapeSize) ((s.widen extra).machine pc steps)) :=
  ⟨⟨s, pc, steps, rfl⟩, by rw [machine_widen]; rfl, hinner⟩

/-- A jump does not look at the tape. -/
theorem widens_jump (jumps : JumpTable) (pc steps : Int) :
    Progress.Widens size tapeSize extra ((s.machine pc steps).jump jumps)
      (((s.widen extra).machine pc steps).jump jumps) := by
  cases htarget : jumps.target? pc with
  | none =>
      rw [jump_machine_of_none s pc steps htarget, jump_machine_of_none _ pc steps htarget]
      exact widens_failed s pc steps id
  | some target =>
      rw [jump_machine s pc steps htarget, jump_machine _ pc steps htarget]
      exact widens_running s _ _

variable [ByteSource σ] [ByteSink τ]

/-- A primitive operation does the same on the longer tape, except for a move to the
right on the last cell of the shorter one. -/
theorem widens_effect (p : Primitive) (hedge : p = .moveRight → s.pointer.val + 1 < size)
    (pc steps : Int) :
    Progress.Widens size tapeSize extra ((p.effect config pc s).progress pc steps)
      ((p.effect (config.withTape tapeSize) pc (s.widen extra)).progress pc steps) := by
  cases p with
  | moveRight =>
      have hlt := hedge rfl
      have hlong : (s.widen extra).pointer.val + 1 < size + extra := by
        simp only [widen, Fin.val_castAdd]
        omega
      rw [Primitive.effect, Primitive.effect, dif_pos hlt, dif_pos hlong]
      exact widens_running { s with pointer := ⟨s.pointer.val + 1, hlt⟩ } _ _
  | moveLeft =>
      rw [Primitive.effect, Primitive.effect]
      by_cases hzero : s.pointer.val = 0
      · rw [if_pos hzero, if_pos (show (s.widen extra).pointer.val = 0 from hzero)]
        refine widens_failed s pc steps ?_
        simp only [Progress.StopsAt]
        omega
      · rw [if_neg hzero, if_neg (show ¬ (s.widen extra).pointer.val = 0 from hzero)]
        exact widens_running { s with pointer := ⟨s.pointer.val - 1, by omega⟩ } _ _
  | increment =>
      rw [Primitive.effect, Primitive.effect, cell_widen, put_widen]
      exact widens_running _ _ _
  | decrement =>
      rw [Primitive.effect, Primitive.effect, cell_widen, put_widen]
      exact widens_running _ _ _
  | output =>
      simp only [Primitive.effect, cell_widen, show (s.widen extra).sink = s.sink from rfl]
      cases ByteSink.refusal? s.sink s.cell.toNat with
      | some why => exact widens_failed s pc steps id
      | none =>
          exact widens_running { s with sink := ByteSink.put s.sink s.cell.toNat } _ _
  | input =>
      simp only [Primitive.effect, show (s.widen extra).source = s.source from rfl]
      obtain ⟨value, rest⟩ := ByteSource.read s.source
      have hput : ∀ value : UInt8, { s.widen extra with source := rest }.put value =
          ({ s with source := rest }.put value).widen extra :=
        fun value => put_widen extra { s with source := rest } value
      cases value with
      | some value =>
          simp only [hput]
          exact widens_running _ _ _
      | none =>
          simp only [Config.withTape]
          cases config.eof with
          | error => exact widens_failed { s with source := rest } pc steps id
          | zero =>
              simp only [hput]
              exact widens_running _ _ _
          | unchanged => exact widens_running { s with source := rest } _ _

/-- So does every instruction. -/
theorem widens_dispatch (hsize : config.tapeSize.value = size)
    (hwide : tapeSize.value = (size + extra : Nat)) (jumps : JumpTable) {x : Instruction}
    (hedge : x = .moveRight → s.pointer.val + 1 < size) (pc steps : Int) :
    Progress.Widens size tapeSize extra ((s.machine pc steps).dispatch config jumps x)
      (((s.widen extra).machine pc steps).dispatch (config.withTape tapeSize) jumps x) := by
  by_cases hopen : x = .loopOpen
  · subst hopen
    rw [dispatch_loopOpen, dispatch_loopOpen, cell_widen]
    by_cases hzero : s.cell = 0
    · rw [if_pos hzero, if_pos hzero]
      exact widens_jump s jumps pc steps
    · rw [if_neg hzero, if_neg hzero]
      exact widens_running s _ _
  by_cases hclose : x = .loopClose
  · subst hclose
    rw [dispatch_loopClose, dispatch_loopClose, cell_widen]
    by_cases hzero : s.cell = 0
    · rw [if_pos hzero, if_pos hzero]
      exact widens_running s _ _
    · rw [if_neg hzero, if_neg hzero]
      exact widens_jump s jumps pc steps
  obtain ⟨p, rfl⟩ := Primitive.exists_instruction_eq hopen hclose
  have hlong : (config.withTape tapeSize).tapeSize.value = (size + extra : Nat) := hwide
  rw [dispatch_primitive s pc steps jumps hsize,
    dispatch_primitive (s.widen extra) pc steps jumps hlong]
  refine widens_effect s p ?_ pc steps
  rintro rfl
  exact hedge rfl

/-- The next step moves the pointer to the right, and it is on the last cell. -/
structure AtEdge (config : Config) (program : Program) (s : Store size σ τ)
    (pc steps : Int) : Prop where
  onLast : s.pointer.val + 1 = size
  inCode : pc < program.length
  inBudget : config.spent? steps = none
  fetched : program.fetch? pc = some .moveRight

/-- A step is the same on a tape with more cells, or it stands at the right edge. -/
theorem widens_or_atEdge (hsize : config.tapeSize.value = size)
    (hwide : tapeSize.value = (size + extra : Nat)) (program : Program) (pc steps : Int) :
    Progress.Widens size tapeSize extra ((s.machine pc steps).step config program)
        (((s.widen extra).machine pc steps).step (config.withTape tapeSize) program) ∨
      s.AtEdge config program pc steps := by
  rw [or_iff_not_imp_right]
  intro hedge
  have hbudget : (config.withTape tapeSize).spent? steps = config.spent? steps := rfl
  rw [Machine.step, Machine.step, pc_machine, pc_machine, steps_machine, steps_machine, hbudget]
  by_cases hpc : pc < program.length
  · rw [if_pos hpc, if_pos hpc]
    cases hspent : config.spent? steps with
    | some limit => exact widens_failed s pc steps (fun h => h)
    | none =>
        cases hfetch : program.fetch? pc with
        | none => exact widens_failed s pc steps (fun h => h)
        | some x =>
            refine widens_dispatch s hsize hwide program.jumps ?_ pc steps
            rintro rfl
            by_contra hlast
            exact hedge ⟨by omega, hpc, hspent, hfetch⟩
  · rw [if_neg hpc, if_neg hpc]
    exact ⟨⟨s, pc, steps, rfl⟩, by rw [machine_widen]; rfl, id⟩

section Edge

variable {s : Store size σ τ} {pc steps : Int} (h : s.AtEdge config program pc steps)
include h

/-- At the right edge the pointer would leave the tape. -/
theorem AtEdge.step_eq (hsize : config.tapeSize.value = size) :
    (s.machine pc steps).step config program =
      .failed (.fault (.pointerOutOfBounds size config.tapeSize pc)) (s.machine pc steps) := by
  have hlast := h.onLast
  rw [Machine.step, pc_machine, if_pos h.inCode, steps_machine, h.inBudget]
  simp only [h.fetched]
  rw [Machine.dispatch, Machine.moveRight, pointer_machine, if_pos (by omega),
    show (s.pointer.val : Int) + 1 = size by omega]
  rfl

/-- With more cells it moves on. -/
theorem AtEdge.step_widen (hwide : tapeSize.value = (size + extra : Nat))
    (hextra : 0 < extra) :
    ((s.machine pc steps).widen extra).step (config.withTape tapeSize) program =
      (((s.machine pc steps).widen extra).pointTo size).next := by
  have hlast := h.onLast
  have hbudget : (config.withTape tapeSize).spent? steps = none := h.inBudget
  have hlong : (config.withTape tapeSize).tapeSize.value = (size + extra : Nat) := hwide
  rw [← machine_widen, Machine.step, pc_machine, if_pos h.inCode, steps_machine, hbudget]
  simp only [h.fetched]
  rw [Machine.dispatch, Machine.moveRight, hlong, pointer_machine,
    show ((s.widen extra).pointer.val : Int) = s.pointer.val from rfl, if_neg (by omega),
    show (s.pointer.val : Int) + 1 = size by omega]

end Edge

end Step

theorem blank_widen (hpos : 0 < size) (extra : Nat) (source : σ) (sink : τ) :
    (blank hpos source sink).widen extra = blank (by omega) source sink := by
  simp [blank, widen]

end Store

namespace Machine

variable [ByteSource σ] [ByteSink τ] {config : Config} {program : Program}
variable {tapeSize : Setting} {extra : Nat} (hsize : config.tapeSize.value = size)
variable (hwide : tapeSize.value = (size + extra : Nat)) {m : Machine σ τ}
include hsize hwide

theorem OnTape.widens_or_atEdge (h : m.OnTape size) (program : Program) :
    Progress.Widens size tapeSize extra (m.step config program)
        ((m.widen extra).step (config.withTape tapeSize) program) ∨
      ∃ (s : Store size σ τ) (pc steps : Int),
        m = s.machine pc steps ∧ s.AtEdge config program pc steps := by
  obtain ⟨s, pc, steps, rfl⟩ := h
  rw [← s.machine_widen]
  rcases s.widens_or_atEdge hsize hwide program pc steps with hwidens | hedge
  · exact Or.inl hwidens
  · exact Or.inr ⟨s, pc, steps, rfl, hedge⟩

/-- A run that does not stop at the right edge is the same on the longer tape. -/
theorem OnTape.run_widens (h : m.OnTape size) {n : Nat}
    (hinner : ¬ (m.run config program n).StopsAt size) :
    Progress.Widens size tapeSize extra (m.run config program n)
      ((m.widen extra).run (config.withTape tapeSize) program n) := by
  induction n generalizing m with
  | zero => exact ⟨h, rfl, hinner⟩
  | succ n ih =>
      rw [run_succ] at hinner
      rw [run_succ, run_succ]
      rcases h.widens_or_atEdge hsize hwide program with hwidens | ⟨s, pc, steps, rfl, hedge⟩
      · rw [hwidens.eq_widen]
        cases hstep : m.step config program with
        | running next =>
            rw [hstep] at hwidens hinner
            exact ih hwidens.onTape hinner
        | halted last =>
            rw [hstep] at hwidens
            exact ⟨hwidens.onTape, rfl, hwidens.inner⟩
        | failed why last =>
            rw [hstep] at hwidens
            exact ⟨hwidens.onTape, rfl, hwidens.inner⟩
      · rw [hedge.step_eq hsize] at hinner
        exact absurd rfl hinner

/-- A run that stops at the right edge is the beginning of the run on a tape with
more cells, and that one goes on. -/
theorem OnTape.run_stopsAt (h : m.OnTape size) {n : Nat} {last : Machine σ τ}
    {told : Setting} {pc : Int} (hextra : 0 < extra)
    (hstop : m.run config program n =
      .failed (.fault (.pointerOutOfBounds size told pc)) last) :
    last.state.pc = pc ∧ last.state.pointer = size - 1 ∧
      ∃ k, (m.run config program k = .running last ∧
        (m.widen extra).run (config.withTape tapeSize) program k =
          .running (last.widen extra)) ∧
        (last.widen extra).step (config.withTape tapeSize) program =
          ((last.widen extra).pointTo size).next := by
  obtain ⟨k, -, before, hrun, hstep⟩ := exists_last_step hstop rfl
  have hwidens : Progress.Widens size tapeSize extra (m.run config program k)
      ((m.widen extra).run (config.withTape tapeSize) program k) :=
    h.run_widens hsize hwide (by rw [hrun]; exact id)
  rw [hrun] at hwidens
  rcases hwidens.onTape.widens_or_atEdge hsize hwide program with
    hsame | ⟨s, pc', steps, hs, hedge⟩
  · have hinner := hsame.inner
    rw [show (Progress.running before).machine = before from rfl, hstep] at hinner
    exact absurd rfl hinner
  · obtain rfl : before = s.machine pc' steps := hs
    rw [hedge.step_eq hsize] at hstep
    cases hstep
    have hlast := hedge.onLast
    refine ⟨rfl, ?_, k, ⟨hrun, hwidens.eq_widen⟩, hedge.step_widen hwide hextra⟩
    rw [Store.pointer_machine]
    omega

end Machine

section Execute

/-- A tape that is not longer than one that can be laid out can be laid out too. -/
theorem tapeBreakdown?_of_le {small large : Int} (hpos : 0 < small) (hle : small ≤ large)
    (hfits : tapeBreakdown? large = none) :
    tapeBreakdown? small = none := by
  rw [tapeBreakdown?, addressBound] at hfits ⊢
  split at hfits
  · cases hfits
  · rw [if_neg (by omega), if_neg (by omega)]

variable [ByteSource σ] [ByteSink τ]

/-- **Longer tapes.**  If the longer tape cannot be laid out, a run on it breaks down
before its first step.  Otherwise a run on the shorter tape that does not stop because
its pointer would have moved behind the last cell is the same on the longer tape: same
end, state, input and output, with zeros in the cells behind the shorter tape.  A run
that stops there is the beginning of the run on every longer tape, and that one makes
the move. -/
theorem execute_tape_extension (config : Config) (program : Program) (source : σ) (sink : τ)
    {small large : Setting} (hpos : 1 ≤ small.value) (hle : small.value ≤ large.value) :
    (∀ why, tapeBreakdown? large.value = some why →
      ∀ patience, ∃ m,
        execute patience (config.withTape large) program source sink =
          .failed (.breakdown why) m)
      ∧
    (tapeBreakdown? large.value = none →
      (∀ patience p,
        execute patience (config.withTape small) program source sink = p →
        ¬ p.StopsAt small.value →
        execute patience (config.withTape large) program source sink =
          p.widen large (large.value - small.value).toNat)
        ∧
      (∀ patience told pc m,
        execute patience (config.withTape small) program source sink =
          .failed (.fault (.pointerOutOfBounds small.value told pc)) m →
        small.value < large.value →
        m.state.pc = pc ∧ m.state.pointer = small.value - 1 ∧
          ∃ k : Nat, m.state.steps = k ∧
            Machine.Reached (config.withTape large) program source sink k
              (m.widen (large.value - small.value).toNat) ∧
            (m.widen (large.value - small.value).toNat).step (config.withTape large)
                program =
              ((m.widen (large.value - small.value).toNat).pointTo small.value).next)) := by
  obtain ⟨size, hsize⟩ := Int.eq_ofNat_of_zero_le (show 0 ≤ small.value by omega)
  obtain ⟨extra, hextra⟩ := Int.eq_ofNat_of_zero_le
    (show 0 ≤ large.value - small.value by omega)
  have hsmall : (config.withTape small).tapeSize.value = size := hsize
  have hlarge : large.value = (size + extra : Nat) := by omega
  have hcells : 0 < size := by omega
  rw [hextra, Int.toNat_natCast]
  constructor
  · intro why hwhy patience
    refine ⟨⟨State.blank 0, source, sink⟩, ?_⟩
    rw [execute, Machine.boot, show (config.withTape large).tapeSize = large from rfl, hwhy]
  · intro hfits
    have hboot := Store.boot_eq hsmall hcells
      (hsize ▸ tapeBreakdown?_of_le (by omega) hle hfits) source sink
    have hwide : Machine.boot (config.withTape large) source sink =
        .running (((Store.blank hcells source sink).machine 0 0).widen extra) := by
      rw [← Store.machine_widen, Store.blank_widen]
      exact Store.boot_eq hlarge _ (hlarge ▸ hfits) source sink
    have honTape : ((Store.blank hcells source sink).machine 0 0).OnTape size :=
      ⟨_, 0, 0, rfl⟩
    constructor
    · rintro patience p rfl hinner
      rw [execute_of_boot hboot, hsize] at hinner
      rw [execute_of_boot hboot, execute_of_boot hwide]
      exact (honTape.run_widens hsmall hlarge hinner).eq_widen
    · intro patience told pc m hstop hlt
      rw [execute_of_boot hboot, hsize] at hstop
      obtain ⟨hpc, hpointer, k, ⟨hrun, hrunWide⟩, hstep⟩ :=
        honTape.run_stopsAt hsmall hlarge (by omega) hstop
      have hsteps := Machine.run_steps hrun
      rw [Store.steps_machine, zero_add] at hsteps
      rw [hsize]
      exact ⟨hpc, hpointer, k, hsteps, ⟨_, hwide, hrunWide⟩, hstep⟩

/-- The codes `+<` and `+>` on one cell and on three: the first stops before the first
cell on both tapes, the second behind the only cell of the shorter one. -/
theorem execute_tape_extension_edges :
    execute 3 { tapeSize := .number 3 } ⟨#[.increment, .moveLeft], .empty⟩
        (Source.ofBytes []) Sink.newBuffer =
      .failed (.fault (.pointerOutOfBounds (-1) (.number 3) 1))
        ⟨⟨#[1, 0, 0], 0, 1, 1⟩, .ofBytes [], .newBuffer⟩ ∧
      execute 3 { tapeSize := .number 1 } ⟨#[.increment, .moveRight], .empty⟩
          (Source.ofBytes []) Sink.newBuffer =
        .failed (.fault (.pointerOutOfBounds 1 (.number 1) 1))
          ⟨⟨#[1], 0, 1, 1⟩, .ofBytes [], .newBuffer⟩ ∧
      Machine.Reached { tapeSize := .number 3 } ⟨#[.increment, .moveRight], .empty⟩
        (Source.ofBytes []) Sink.newBuffer 1
        ⟨⟨#[1, 0, 0], 0, 1, 1⟩, .ofBytes [], .newBuffer⟩ := by
  have hone : (1 : Int) ≤ (Setting.number 1).value := by decide
  have hle : (Setting.number 1).value ≤ (Setting.number 3).value := by decide
  have hright : execute 3 { tapeSize := .number 1 } ⟨#[.increment, .moveRight], .empty⟩
      (Source.ofBytes []) Sink.newBuffer =
        .failed (.fault (.pointerOutOfBounds 1 (.number 1) 1))
          ⟨⟨#[1], 0, 1, 1⟩, .ofBytes [], .newBuffer⟩ := rfl
  refine ⟨?_, hright, ?_⟩
  · exact ((execute_tape_extension {} ⟨#[.increment, .moveLeft], .empty⟩ (Source.ofBytes [])
      Sink.newBuffer hone hle).2 rfl).1 3 _ rfl
      (show ¬ (-1 : Int) = 1 by decide)
  · obtain ⟨-, -, k, hsteps, hreached, -⟩ :=
      ((execute_tape_extension {} _ (Source.ofBytes []) Sink.newBuffer hone hle).2 rfl).2
        3 _ _ _ hright (by decide)
    have hcount : (1 : Int) = k := hsteps
    obtain rfl : 1 = k := by omega
    exact hreached

end Execute

end TapeLang
