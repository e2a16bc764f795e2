import Mathlib.Tactic
import TapeLang.Proofs.BracketFaults
import TapeLang.Proofs.FaultSites
import TapeLang.Proofs.FrontEnds
import TapeLang.Proofs.SharedEnvironment

/-!
# Loading, interpreting and running a text

A program text can be loaded, interpreted in an environment, or run on input in
memory.  Interpreting reports a fault, and running gives it to the caller.

**Input.** A configuration, a program text, an environment, and input in memory.
**Algorithm.** Interpreting and running are two views of one attempt: the fault
that kept the text from being loaded, or how far the machine got.
**Results.** `entry_points_agree`: a text that is not loaded is reported and touches
nothing; a text that is loaded is interpreted as the program that was loaded, and
running it gives the output or the fault of its report.  No fault of the language
escapes a report.
-/

namespace TapeLang

/-- What a report says of its verdict in four ways. -/
theorem Report.success_iff (r : Report) :
    (r.success = true ↔ r.errorKind? = none) ∧ (r.success = true ↔ r.errors = []) ∧
      (r.success = true ↔ ∃ s, r.state? = some s) := by
  obtain ⟨verdict, output, outputSize, steps⟩ := r
  cases verdict with
  | ok s => simp [success, errorKind?, errors, fault?, state?]
  | error f => simp [success, errorKind?, errors, fault?, state?]

section Load

variable {text : String} {f : Fault} {program : Program}

/-- A text is not loaded for the reason for which its code has no jump table. -/
theorem Program.load_eq_error_iff :
    Program.load text = .error f ↔ Loop.resolve (tokenize text) = .error f := by
  rw [Program.load]
  cases Loop.resolve (tokenize text) with
  | error g =>
      constructor
      · intro h
        cases h
        rfl
      · intro h
        cases h
        rfl
  | ok jumps =>
      constructor
      · intro h
        cases h
      · intro h
        cases h

/-- A text is not loaded because of a bracket that it names. -/
theorem Program.exists_index_of_load_error (h : Program.load text = .error f) :
    ∃ i : Nat, f = .unmatchedClose i ∨ f = .unmatchedOpen i := by
  have hresolve := Program.load_eq_error_iff.1 h
  have hmem := List.mem_of_head? (Loop.resolve_eq_error_iff_head?.1 hresolve)
  rcases Loop.mem_faults.1 hmem with ⟨i, rfl, -⟩ | ⟨i, rfl, -⟩
  · exact ⟨i, Or.inl rfl⟩
  · exact ⟨i, Or.inr rfl⟩

variable (patience : Nat) (config : Config)

theorem interpret_of_load_error (h : Program.load text = .error f) (env : Environment) :
    interpret patience config (.text text) env = (env.report (.error f) 0, env) := by
  rw [interpret, attempt, Script.load, h]
  rfl

theorem runText_of_load_error (h : Program.load text = .error f) (data : List UInt8) :
    runText patience config text data = some (.error (.unloaded f)) := by
  rw [runText, attempt, Script.load, h]
  rfl

theorem runText_of_load (h : Program.load text = .ok program) (data : List UInt8) :
    runText patience config text data =
      Attempt.output? config
        (.ok ((Environment.ofBytes data).execute patience config program)) := by
  rw [runText, attempt, Script.load, h]
  rfl

end Load

section Views

variable (config : Config) (p : Progress Source Sink)

/-- A run gives output if and only if the report on it is one of success, with that
output. -/
theorem output?_eq_ok_iff (bytes : List UInt8) :
    Attempt.output? config (.ok p) = some (.ok bytes) ↔
      ∃ r after, Ending.ofProgress config p = (.reported r, after) ∧ r.success = true ∧
        r.output = bytes := by
  cases p with
  | running m => simp [Attempt.output?, Ending.ofProgress]
  | halted m =>
      simp [Attempt.output?, Ending.ofProgress, Environment.report, Report.success,
        Report.fault?]
  | failed why m =>
      cases why with
      | fault f =>
          simp [Attempt.output?, Ending.ofProgress, Ending.ofStop, Machine.stop,
            Environment.report, Report.success, Report.fault?]
      | breakdown b =>
          simp [Attempt.output?, Ending.ofProgress, Ending.ofStop, Machine.stop]

/-- A run gives a fault of some kind and message if and only if the report on it shows
that kind and that message alone. -/
theorem output?_fault_iff (kind message : String) :
    (∃ f record?, Attempt.output? config (.ok p) = some (.error ⟨.fault f, record?⟩) ∧
        f.kind = kind ∧ f.message = message) ↔
      ∃ r after, Ending.ofProgress config p = (.reported r, after) ∧
        r.errorKind? = some kind ∧ r.errors = [message] := by
  cases p with
  | running m => simp [Attempt.output?, Ending.ofProgress]
  | halted m =>
      simp [Attempt.output?, Ending.ofProgress, Environment.report, Report.errorKind?,
        Report.fault?]
  | failed why m =>
      cases why with
      | fault f =>
          simp [Attempt.output?, Ending.ofProgress, Ending.ofStop, Machine.stop,
            Environment.report, Report.errorKind?, Report.errors, Report.fault?]
      | breakdown b =>
          simp [Attempt.output?, Ending.ofProgress, Ending.ofStop, Machine.stop]

end Views

section Kept

variable {config : Config} {program : Program}

theorem Machine.store_ne_fault (m last : Machine Source Sink) (value : Int) (f : Fault) :
    m.store value ≠ .failed (.fault f) last := by
  rw [store]
  cases m.state.address? with
  | none => exact fun h => by cases h
  | some a => exact fun h => by cases h

/-- A fault leaves a machine as it was, if its source serves bytes. -/
theorem Machine.eq_of_step_fault {m last : Machine Source Sink} {f : Fault}
    (hbytes : m.source.ServesBytes)
    (h : m.step config program = .failed (.fault f) last) :
    last = m := by
  by_cases hreads : m.state.Reads config program
  · rw [step_of_reads m hreads, read] at h
    split at h
    · exact absurd h (store_ne_fault _ _ _ _)
    · next rest hread =>
        have hend := Source.bytes?_of_read_none hbytes (by rw [hread])
        obtain rfl : m.source = rest :=
          congrArg Prod.snd ((Source.read_of_bytes?_nil hend).symm.trans hread)
        cases heof : config.eof with
        | error =>
            rw [heof] at h
            cases h
            rfl
        | zero =>
            rw [heof] at h
            exact absurd h (store_ne_fault _ _ _ _)
        | unchanged =>
            rw [heof] at h
            cases h
  · have hfree := State.request_readFree hreads
    rw [step_eq_serve] at h
    cases hrequest : m.state.request config program with
    | halt =>
        rw [hrequest] at h
        cases h
    | stop why =>
        rw [hrequest] at h
        cases h
        rfl
    | move next =>
        rw [hrequest] at h
        cases h
    | write value =>
        rw [hrequest, Request.serve] at h
        split at h
        · cases h
        · cases h
    | read =>
        rw [hrequest] at hfree
        exact hfree.elim

/-- A run that fails with a fault is left with a machine that it had reached. -/
theorem exists_reached_of_execute_fault {patience : Nat} {source : Source} {sink : Sink}
    {f : Fault} {m : Machine Source Sink} (hbytes : source.ServesBytes)
    (h : execute patience config program source sink = .failed (.fault f) m) :
    ∃ k, Machine.Reached config program source sink k m := by
  rcases Machine.boot_cases config source sink with ⟨why, s, hboot⟩ | ⟨s, hboot, -⟩
  · rw [execute, hboot] at h
    cases h
  · obtain ⟨k, last, hreached, hstep⟩ := exists_reached_of_execute_failed hboot h
    obtain rfl := Machine.eq_of_step_fault (hreached.servesBytes hbytes) hstep
    exact ⟨k, hreached⟩

/-- The report on a run that gives a fault keeps what the completed steps have written,
and counts them. -/
theorem exists_report_of_runText_fault {patience : Nat} {text : String}
    (hload : Program.load text = .ok program) {data : List UInt8} {f : Fault}
    {record? : Option Snapshot}
    (h : runText patience config text data = some (.error ⟨.fault f, record?⟩)) :
    ∃ (k : Nat) (m : Machine Source Sink) (r : Report),
      Machine.Reached config program (Source.ofBytes data) Sink.newBuffer k m ∧
        record? = some (m.state.snapshot config.tapeSize State.defaultRadius) ∧
        interpret patience config (.text text) (.ofBytes data) =
          (.reported r, ⟨m.source, m.sink⟩) ∧
        r.verdict = .error f ∧ r.steps = k ∧ r.output = m.sink.captured := by
  rw [runText_of_load patience config hload] at h
  rw [interpret_of_load patience config (.text text) hload]
  cases hrun : (Environment.ofBytes data).execute patience config program with
  | running m =>
      rw [hrun] at h
      cases h
  | halted m =>
      rw [hrun] at h
      cases h
  | failed why m =>
      rw [hrun] at h
      cases why with
      | breakdown b => cases h
      | fault g =>
          cases h
          obtain ⟨k, hreached⟩ := exists_reached_of_execute_fault ⟨data, rfl⟩ hrun
          exact ⟨k, m, _, hreached, rfl, rfl, rfl, hreached.steps_eq, rfl⟩

end Kept

section Escape

variable {config : Config} {patience : Nat} {script : Script} {env : Environment}

/-- A fault ends an attempt: it kept the script from being loaded, or stopped its run. -/
inductive Attempt.EndsWith (f : Fault) : Attempt → Prop
  | unloaded : Attempt.EndsWith f (.error f)
  | stopped (m : Machine Source Sink) : Attempt.EndsWith f (.ok (.failed (.fault f) m))

/-- A fault that ends an attempt is reported. -/
theorem Attempt.EndsWith.reported {a : Attempt} {f : Fault} (h : a.EndsWith f) :
    ∃ r after, a.ending config env = (.reported r, after) ∧ r.verdict = .error f := by
  cases h with
  | unloaded => exact ⟨_, _, rfl, rfl⟩
  | stopped m => exact ⟨_, _, rfl, rfl⟩

/-- With a configuration that was checked and a tape that can be laid out, nothing at
all escapes from interpreting a text. -/
theorem interpret_text_ne_brokeDown {tapeSize eof maxSteps : Option Json}
    (hconfig : Config.ofFields tapeSize eof maxSteps = .ok config)
    (hfits : tapeBreakdown? config.tapeSize.value = none) (text : String) (b : Breakdown) :
    (interpret patience config (.text text) env).1 ≠ .brokeDown b := by
  cases hload : Program.load text with
  | error f =>
      rw [interpret_of_load_error patience config hload]
      exact fun h => by cases h
  | ok program =>
      obtain ⟨hone, hbudget⟩ := Config.bounds_of_ofFields hconfig
      obtain ⟨size, hsize⟩ :=
        Int.eq_ofNat_of_zero_le (show 0 ≤ config.tapeSize.value by omega)
      have hpos : 0 < size := by omega
      have hboot := Store.boot_eq hsize hpos (hsize ▸ hfits) env.source env.sink
      obtain ⟨jumps, hresolve, rfl⟩ := Program.exists_resolve_of_load hload
      rw [interpret_of_load patience config (.text text) hload]
      cases hrun : env.execute patience config ⟨(tokenize text).toArray, jumps⟩ with
      | running m => exact fun h => by cases h
      | halted m => exact fun h => by cases h
      | failed why m =>
          cases why with
          | fault f => exact fun h => by cases h
          | breakdown b' =>
              exact absurd hrun (execute_ne_breakdown hsize hpos hbudget hresolve hboot)

end Escape

section Agreement

/-- **Entry points agree.**  A text that is not loaded because of a bracket is reported
in every environment as a failure after no steps, without a state, and leaves the
environment as it was; running it gives that fault.  A text that is loaded is
interpreted as the program that was loaded.  Running it gives output if and only if its
report is one of success with that output, and a fault if and only if its report shows
kind and message of the fault; then the report has the output of the completed steps.
In every report success, no kind, no message and a state go together.  Every fault that
keeps a script from being loaded or stops its run is reported, and with a checked
configuration and a tape that can be laid out nothing else escapes from a text. -/
theorem entry_points_agree (config : Config) :
    (∀ text f, Program.load text = .error f →
      (∃ i : Nat, f = .unmatchedClose i ∨ f = .unmatchedOpen i)
        ∧
      (∀ patience env, ∃ r,
        interpret patience config (.text text) env = (.reported r, env) ∧
          r.success = false ∧ r.steps = 0 ∧ r.errorKind? = some f.kind ∧
          r.errors = [f.message] ∧ r.state? = none ∧ r.output = env.captured)
        ∧
      (∀ patience data,
        runText patience config text data =
          some (.error { why := .fault f, record? := none })))
      ∧
    (∀ text program, Program.load text = .ok program →
      (∀ patience env, interpret patience config (.text text) env =
        interpret patience config (.loaded program) env)
        ∧
      (∀ patience data bytes,
        runText patience config text data = some (.ok bytes) ↔
          ∃ r after, interpret patience config (.text text) (.ofBytes data) =
              (.reported r, after) ∧ r.success = true ∧ r.output = bytes)
        ∧
      (∀ patience data kind message,
        (∃ f record?,
          runText patience config text data = some (.error ⟨.fault f, record?⟩) ∧
            f.kind = kind ∧ f.message = message) ↔
          ∃ r after, interpret patience config (.text text) (.ofBytes data) =
              (.reported r, after) ∧ r.errorKind? = some kind ∧ r.errors = [message])
        ∧
      (∀ patience data f record?,
        runText patience config text data = some (.error ⟨.fault f, record?⟩) →
        ∃ (k : Nat) (m : Machine Source Sink) (r : Report),
          Machine.Reached config program (Source.ofBytes data) Sink.newBuffer k m ∧
            record? = some (m.state.snapshot config.tapeSize State.defaultRadius) ∧
            interpret patience config (.text text) (.ofBytes data) =
              (.reported r, ⟨m.source, m.sink⟩) ∧
            r.verdict = .error f ∧ r.steps = k ∧ r.output = m.sink.captured))
      ∧
    (∀ patience script env r after,
      interpret patience config script env = (.reported r, after) →
      (r.success = true ↔ r.errorKind? = none) ∧ (r.success = true ↔ r.errors = []) ∧
        (r.success = true ↔ ∃ s, r.state? = some s))
      ∧
    (∀ patience script env f, (attempt patience config script env).EndsWith f →
      ∃ r after, interpret patience config script env = (.reported r, after) ∧
        r.verdict = .error f)
      ∧
    (∀ tapeSize eof maxSteps, Config.ofFields tapeSize eof maxSteps = .ok config →
      tapeBreakdown? config.tapeSize.value = none →
      ∀ patience text env b,
        (interpret patience config (.text text) env).1 ≠ .brokeDown b) := by
  refine ⟨fun text f hload => ⟨?_, fun patience env => ?_, fun patience data => ?_⟩,
    fun text program hload => ⟨fun patience env => ?_, fun patience data bytes => ?_,
      fun patience data kind message => ?_, fun patience data f record? h => ?_⟩,
    fun patience script env r after _ => r.success_iff,
    fun patience script env f h => h.reported,
    fun tapeSize eof maxSteps hconfig hfits patience text env b =>
      interpret_text_ne_brokeDown hconfig hfits text b⟩
  · exact Program.exists_index_of_load_error hload
  · exact ⟨_, interpret_of_load_error patience config hload env,
      rfl, rfl, rfl, rfl, rfl, rfl⟩
  · exact runText_of_load_error patience config hload data
  · rw [interpret_of_load patience config (.text text) hload,
      interpret_of_load patience config (.loaded program) rfl]
  · rw [runText_of_load patience config hload,
      interpret_of_load patience config (.text text) hload]
    exact output?_eq_ok_iff config _ bytes
  · rw [runText_of_load patience config hload,
      interpret_of_load patience config (.text text) hload]
    exact output?_fault_iff config _ kind message
  · exact exists_report_of_runText_fault hload h

/-- A lone bracket, in an environment that was read from and written to, and the code
`+.>` on one cell, which writes a byte before it leaves the tape. -/
theorem entry_points_agree_edge :
    Program.load "]" = .error (.unmatchedClose 0) ∧
      (∃ r, interpret 0 { tapeSize := .number 1 } (.text "]") (.inUse 1 [66] [65]) =
          (.reported r, .inUse 1 [66] [65]) ∧
        r.errors = ["Unmatched ']' at instruction 0"]) ∧
      Program.load "+.>" = .ok ⟨#[.increment, .output, .moveRight], .empty⟩ ∧
      runText 3 { tapeSize := .number 1 } "+.>" [] =
        some (.error ⟨.fault (.pointerOutOfBounds 1 (.number 1) 2),
          some ⟨.number 1, 0, 2, 2, [(0, 1)]⟩⟩) ∧
      ∃ r after, interpret 3 { tapeSize := .number 1 } (.text "+.>") (.ofBytes []) =
          (.reported r, after) ∧
        r.errorKind? = some "PointerOutOfBounds" ∧
        r.errors = ["Data pointer moved to 1, outside tape [0, 1)"] := by
  have hclose : Program.load "]" = .error (.unmatchedClose 0) := rfl
  have hmove : Program.load "+.>" =
      .ok ⟨#[.increment, .output, .moveRight], .empty⟩ := rfl
  have hrun : runText 3 { tapeSize := .number 1 } "+.>" [] =
      some (.error ⟨.fault (.pointerOutOfBounds 1 (.number 1) 2),
        some ⟨.number 1, 0, 2, 2, [(0, 1)]⟩⟩) := by
    rw [runText_of_load 3 _ hmove]
    rfl
  obtain ⟨hunloaded, hloaded, -⟩ := entry_points_agree { tapeSize := .number 1 }
  obtain ⟨-, hreport, -⟩ := hunloaded "]" _ hclose
  obtain ⟨r, hr, -, -, -, herrors, -⟩ := hreport 0 (.inUse 1 [66] [65])
  obtain ⟨-, -, hfault, -⟩ := hloaded "+.>" _ hmove
  exact ⟨hclose, ⟨r, hr, herrors⟩, hmove, hrun, (hfault 3 [] _ _).1 ⟨_, _, hrun, rfl, rfl⟩⟩

end Agreement

end TapeLang
