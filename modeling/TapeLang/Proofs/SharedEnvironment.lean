import Mathlib.Tactic
import TapeLang.Proofs.Representations
import TapeLang.Report

/-!
# Calls that share an environment

An environment outlives the calls that use it: each goes on reading where the one
before it stopped, and writes behind what is there.

**Input.** A configuration, bytes in memory, and scripts that are interpreted one
after another on one environment.
**Results.** `interpret_inUse`: a call on an environment in use is the call on the
unread bytes alone, moved behind what was read and written before.
`session_splices` follows this through a whole session, whatever came of the
earlier calls.
-/

namespace TapeLang

section Shifts

/-- The source with more bytes read before its first. -/
def Source.advance (offset : Nat) : Source → Source
  | .memory position unread => .memory (offset + position) unread
  | other => other

/-- The sink with more bytes in front of those that it holds. -/
def Sink.prepend (front : List UInt8) : Sink → Sink
  | .buffer bytes => .buffer (front.toArray ++ bytes)
  | other => other

theorem sourceMap_advance (offset : Nat) : SourceMap (Source.advance offset) where
  answer source := by
    cases source with
    | memory position unread => cases unread <;> rfl
    | stream position unread => rfl
    | script unread => rfl
  rest source := by
    cases source with
    | memory position unread => cases unread <;> rfl
    | stream position unread => cases unread <;> rfl
    | script unread => cases unread <;> rfl

theorem sinkMap_prepend (front : List UInt8) : SinkMap (Sink.prepend front) where
  refusal? sink b := by
    cases sink <;> rfl
  put sink b := by
    cases sink with
    | buffer bytes => simp [Sink.prepend, ByteSink.put, Sink.put]
    | stream carried count flushes autoflush => rfl
    | recorder values => rfl

end Shifts

namespace Environment

/-- An environment in use: how many bytes were read, the rest of them, and the bytes
that were written. -/
def inUse (position : Nat) (unread written : List UInt8) : Environment :=
  { source := .memory position unread, sink := .buffer written.toArray }

/-- The environment with more bytes read and written before. -/
def shift (position : Nat) (written : List UInt8) (env : Environment) : Environment :=
  { source := env.source.advance position, sink := env.sink.prepend written }

theorem inUse_shift (position consumed : Nat) (unread written bytes : List UInt8) :
    (inUse consumed unread bytes).shift position written =
      inUse (position + consumed) unread (written ++ bytes) := by
  simp [inUse, shift, Source.advance, Sink.prepend]

theorem ofBytes_eq_inUse (unread : List UInt8) : ofBytes unread = inUse 0 unread [] :=
  rfl

@[simp] theorem captured_inUse (position : Nat) (unread written : List UInt8) :
    (inUse position unread written).captured = written :=
  rfl

@[simp] theorem outputSize_inUse (position : Nat) (unread written : List UInt8) :
    (inUse position unread written).outputSize = written.length :=
  rfl

end Environment

/-- The report of a call in an environment to which bytes were written before. -/
def Report.behind (written : List UInt8) (r : Report) : Report :=
  { r with
    output := written ++ r.output
    outputSize := written.length + r.outputSize }

def Ending.behind (written : List UInt8) : Ending → Ending
  | .reported r => .reported (r.behind written)
  | other => other

/-- A call returns behind earlier bytes only if it returns. -/
theorem Ending.exists_of_behind {written : List UInt8} {ending : Ending} {r : Report}
    (h : ending.behind written = .reported r) :
    ∃ lone, ending = .reported lone ∧ r = lone.behind written := by
  cases ending with
  | reported lone =>
      cases h
      exact ⟨lone, rfl, rfl⟩
  | brokeDown why => cases h
  | unfinished => cases h

section Call

theorem ofProgress_snd (config : Config) (p : Progress Source Sink) :
    (Ending.ofProgress config p).2 = p.machine.environment := by
  cases p with
  | running m => rfl
  | halted m => rfl
  | failed why m => cases why <;> rfl

/-- A report behind earlier bytes is the report on the environment behind them. -/
theorem report_shift (position consumed : Nat) (unread written bytes : List UInt8)
    (verdict : Except Fault State) (steps : Int) :
    ((Environment.inUse consumed unread bytes).shift position written).report verdict steps =
      ((Environment.inUse consumed unread bytes).report verdict steps).behind written := by
  simp [Environment.inUse_shift, Environment.report, Ending.behind, Report.behind]

/-- The ending of a run with its environment moved behind earlier reads and writes. -/
theorem ofProgress_shift {p : Progress Source Sink} {consumed : Nat}
    {unread bytes : List UInt8}
    (hp : p.machine.environment = .inUse consumed unread bytes) (config : Config)
    (position : Nat) (written : List UInt8) :
    Ending.ofProgress config (p.map (Source.advance position) (Sink.prepend written)) =
      ((Ending.ofProgress config p).1.behind written,
        (Ending.ofProgress config p).2.shift position written) := by
  have hreport : ∀ (verdict : Except Fault State) (steps : Int),
      (p.machine.environment.shift position written).report verdict steps =
        (p.machine.environment.report verdict steps).behind written := by
    rw [hp]
    exact report_shift position consumed unread written bytes
  cases p with
  | running m => rfl
  | halted m => exact Prod.ext (hreport (.ok m.state) m.state.steps) rfl
  | failed why m =>
      cases why with
      | fault f => exact Prod.ext (hreport (.error f) m.state.steps) rfl
      | breakdown b => rfl

/-- A run on bytes in memory leaves behind how many of them it read, the others, and
what it wrote. -/
theorem execute_ofBytes (patience : Nat) (config : Config) (program : Program)
    (unread : List UInt8) :
    ∃ consumed bytes,
      (execute patience config program (Source.ofBytes unread)
          Sink.newBuffer).machine.environment =
        .inUse consumed (unread.drop consumed) bytes := by
  obtain ⟨p, hp⟩ := execute_inlet_outlet patience config program unread
  refine ⟨min p.machine.source unread.length, p.machine.sink, ?_⟩
  rw [show Source.ofBytes unread = Inlet.memory.start unread from rfl,
    show Sink.newBuffer = Outlet.buffer.start from rfl, hp, Progress.machine_map,
    ← List.drop_eq_drop_min]
  rfl

variable (patience : Nat) (config : Config) (script : Script)

theorem interpret_ofBytes (unread : List UInt8) :
    ∃ consumed bytes, (interpret patience config script (.ofBytes unread)).2 =
      .inUse consumed (unread.drop consumed) bytes := by
  rw [interpret, attempt]
  cases script.load with
  | error f => exact ⟨0, [], rfl⟩
  | ok program =>
      obtain ⟨consumed, bytes, h⟩ := execute_ofBytes patience config program unread
      exact ⟨consumed, bytes, (ofProgress_snd config _).trans h⟩

/-- A call on an environment in use is the call on the unread bytes alone, moved
behind what was read and written before. -/
theorem interpret_inUse (position : Nat) (unread written : List UInt8) :
    interpret patience config script (.inUse position unread written) =
      ((interpret patience config script (.ofBytes unread)).1.behind written,
        (interpret patience config script (.ofBytes unread)).2.shift position written) := by
  have hshift : Environment.inUse position unread written =
      (Environment.ofBytes unread).shift position written := by
    rw [Environment.ofBytes_eq_inUse, Environment.inUse_shift, Nat.add_zero, List.append_nil]
  rw [hshift, interpret, interpret, attempt, attempt]
  cases script.load with
  | error f => exact Prod.ext (report_shift position 0 unread written [] _ _) rfl
  | ok program =>
      obtain ⟨consumed, bytes, h⟩ := execute_ofBytes patience config program unread
      have hrun := execute_map (sourceMap_advance position) (sinkMap_prepend written)
        patience config program (Source.ofBytes unread) Sink.newBuffer
      exact (congrArg (Ending.ofProgress config) hrun).trans
        (ofProgress_shift h config position written)

variable {patience config script}

/-- A report shows what the environment has captured by the end of the call. -/
theorem output_of_interpret {env after : Environment} {r : Report}
    (h : interpret patience config script env = (.reported r, after)) :
    r.output = after.captured ∧ r.outputSize = after.outputSize := by
  rw [interpret] at h
  generalize attempt patience config script env = a at h
  cases a with
  | error f =>
      cases h
      exact ⟨rfl, rfl⟩
  | ok progress =>
      cases progress with
      | running m => cases h
      | halted m =>
          cases h
          exact ⟨rfl, rfl⟩
      | failed why m =>
          cases why with
          | fault f =>
              cases h
              exact ⟨rfl, rfl⟩
          | breakdown b => cases h

end Call

/-- A call that returned: its script, the environment before it, its report, and the
environment after it. -/
structure Call where
  script : Script
  before : Environment
  report : Report
  after : Environment

/-- The call is what interpreting its script comes to. -/
def Call.Returned (config : Config) (c : Call) : Prop :=
  ∃ patience, interpret patience config c.script c.before = (.reported c.report, c.after)

/-- Calls one after another on one environment, each of which returned. -/
inductive Session (config : Config) : Environment → List Call → Prop where
  | done (env : Environment) : Session config env []
  | call {c : Call} {rest : List Call} (hreturned : c.Returned config)
      (hrest : Session config c.after rest) : Session config c.before (c :: rest)

/-- A call in an environment whose bytes were `d` from the beginning, beside a call of
the same script alone on those of them that are unread. -/
structure Call.Splices (config : Config) (d : List UInt8) (c : Call) (position : Nat)
    (written : List UInt8) (consumed : Nat) (lone : Report) : Prop where
  before : c.before = .inUse position (d.drop position) written
  alone : ∃ patience, interpret patience config c.script (.ofBytes (d.drop position)) =
    (.reported lone, .inUse consumed ((d.drop position).drop consumed) lone.output)
  success : c.report.success = lone.success
  steps : c.report.steps = lone.steps
  errorKind? : c.report.errorKind? = lone.errorKind?
  errors : c.report.errors = lone.errors
  state? : c.report.state? = lone.state?
  after : c.after =
    .inUse (position + consumed) (d.drop (position + consumed)) (written ++ lone.output)
  output : c.report.output = c.after.captured
  outputSize : c.report.outputSize = c.after.captured.length

section Splices

variable {config : Config} {d : List UInt8}

/-- Every call that returns in an environment in use splices. -/
theorem Call.Returned.splices {c : Call} (h : c.Returned config) {position : Nat}
    {written : List UInt8} (hbefore : c.before = .inUse position (d.drop position) written) :
    ∃ consumed lone, c.Splices config d position written consumed lone := by
  obtain ⟨patience, hcall⟩ := h
  obtain ⟨consumed, bytes, hleft⟩ :=
    interpret_ofBytes patience config c.script (d.drop position)
  have hshared := hcall
  rw [hbefore, interpret_inUse, hleft, Environment.inUse_shift, Prod.mk.injEq] at hshared
  obtain ⟨hreport, hafter⟩ := hshared
  obtain ⟨lone, hlone, hbehind⟩ := Ending.exists_of_behind hreport
  have halone : interpret patience config c.script (.ofBytes (d.drop position)) =
      (.reported lone, .inUse consumed ((d.drop position).drop consumed) bytes) :=
    Prod.ext hlone hleft
  obtain rfl : lone.output = bytes := (output_of_interpret halone).1
  obtain ⟨houtput, hsize⟩ := output_of_interpret hcall
  rw [List.drop_drop] at hafter
  exact ⟨consumed, lone,
    { before := hbefore
      alone := ⟨patience, halone⟩
      success := by rw [hbehind]; rfl
      steps := by rw [hbehind]; rfl
      errorKind? := by rw [hbehind]; rfl
      errors := by rw [hbehind]; rfl
      state? := by rw [hbehind]; rfl
      after := hafter.symm
      output := houtput
      outputSize := by rw [hsize, ← hafter]; rfl }⟩

/-- What one call leaves behind is an environment in use again, so the calls of a
session splice one after another. -/
theorem Session.splices {env : Environment} {calls : List Call} (h : Session config env calls)
    {position : Nat} {written : List UInt8}
    (henv : env = .inUse position (d.drop position) written) :
    ∀ c ∈ calls, ∃ position written consumed lone,
      c.Splices config d position written consumed lone := by
  induction h generalizing position written with
  | done env => simp
  | call hreturned hrest ih =>
      obtain ⟨consumed, lone, hsplices⟩ := hreturned.splices henv
      rw [List.forall_mem_cons]
      exact ⟨⟨position, written, consumed, lone, hsplices⟩, ih hsplices.after⟩

/-- **Calls on one environment.**  In a session on bytes in memory every call, whatever
came of the calls before it, reports what its script does alone on the bytes that are
unread by then; it appends what that lone call writes, and reads on by as much as that
lone call reads. -/
theorem session_splices {calls : List Call} (h : Session config (.ofBytes d) calls) :
    ∀ c ∈ calls, ∃ position written consumed lone,
      c.Splices config d position written consumed lone :=
  h.splices (Environment.ofBytes_eq_inUse d)

/-- The code `,.`, a lone bracket, a program that writes and then leaves the tape, and
the code `.`, which finds a fresh tape again. -/
theorem session_splices_mixed :
    ∃ calls : List Call,
      calls.map Call.script =
        [.text ",.", .text "[", .loaded ⟨#[.input, .output, .moveRight], .empty⟩,
          .text "."] ∧
      calls.map (fun c => c.report.errorKind?) =
        [none, some "UnmatchedLoopOpen", some "PointerOutOfBounds", none] ∧
      calls.map (fun c => c.report.output) = [[65], [65], [65, 66], [65, 66, 0]] ∧
      Session { tapeSize := .number 1 } (.ofBytes [65, 66, 67]) calls ∧
      ∀ c ∈ calls, ∃ position written consumed lone,
        c.Splices { tapeSize := .number 1 } [65, 66, 67] position written consumed lone := by
  have hecho : Program.load ",." = .ok ⟨#[.input, .output], .empty⟩ := rfl
  have hopen : Program.load "[" = .error (.unmatchedOpen 0) := rfl
  have hwrite : Program.load "." = .ok ⟨#[.output], .empty⟩ := rfl
  have hfirst : Call.Returned { tapeSize := .number 1 }
      ⟨.text ",.", .ofBytes [65, 66, 67], ⟨.ok ⟨#[65], 0, 2, 2⟩, [65], 1, 2⟩,
        .inUse 1 [66, 67] [65]⟩ := by
    refine ⟨3, ?_⟩
    rw [interpret, attempt, Script.load, hecho]
    rfl
  have hsecond : Call.Returned { tapeSize := .number 1 }
      ⟨.text "[", .inUse 1 [66, 67] [65], ⟨.error (.unmatchedOpen 0), [65], 1, 0⟩,
        .inUse 1 [66, 67] [65]⟩ := by
    refine ⟨0, ?_⟩
    rw [interpret, attempt, Script.load, hopen]
    rfl
  have hthird : Call.Returned { tapeSize := .number 1 }
      ⟨.loaded ⟨#[.input, .output, .moveRight], .empty⟩, .inUse 1 [66, 67] [65],
        ⟨.error (.pointerOutOfBounds 1 (.number 1) 2), [65, 66], 2, 2⟩,
        .inUse 2 [67] [65, 66]⟩ :=
    ⟨3, rfl⟩
  have hfourth : Call.Returned { tapeSize := .number 1 }
      ⟨.text ".", .inUse 2 [67] [65, 66], ⟨.ok ⟨#[0], 0, 1, 1⟩, [65, 66, 0], 3, 1⟩,
        .inUse 2 [67] [65, 66, 0]⟩ := by
    refine ⟨2, ?_⟩
    rw [interpret, attempt, Script.load, hwrite]
    rfl
  have hsession := Session.call hfirst (.call hsecond (.call hthird (.call hfourth (.done _))))
  exact ⟨_, rfl, rfl, rfl, hsession, session_splices hsession⟩

end Splices
end TapeLang
