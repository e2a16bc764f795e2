import Mathlib.Tactic
import TapeLang.Proofs.MachineSafety
import TapeLang.Proofs.PrintedText
import TapeLang.Proofs.Representations
import TapeLang.Proofs.StepBudget
import TapeLang.Proofs.WrittenRequests

/-!
# One run behind every front end

A program can be interpreted by a call, by a message to the service and by the
command line.  The call and the service read from memory and keep the output, the
command line reads from a stream and writes to a stream, or keeps the output for a
report.

**Input.** A program text, input, a policy for the end of input, and a tape size and
a step budget between one and a million.
**Algorithm.** A run with a budget ends, and since brackets were matched before it
and its tape can be laid out, it never breaks down: it has a verdict.  The verdict,
the counter and the bytes written do not depend on the source and the sink.
**Results.** `front_ends_agree`: there is one report that the call gives, that the
service answers with, and that the exits of the command line show.
-/

namespace TapeLang

universe u v

variable {σ : Type u} {τ : Type v}

/-- A text that was loaded has its brackets matched. -/
theorem Program.exists_resolve_of_load {text : String} {program : Program}
    (h : Program.load text = .ok program) :
    ∃ jumps, Loop.resolve (tokenize text) = .ok jumps ∧
      program = ⟨(tokenize text).toArray, jumps⟩ := by
  rw [Program.load] at h
  cases hresolve : Loop.resolve (tokenize text) with
  | error f =>
      rw [hresolve] at h
      cases h
  | ok jumps =>
      rw [hresolve] at h
      cases h
      exact ⟨jumps, rfl, rfl⟩

section Verdicts

/-- What a run that ended without a breakdown has come to. -/
def Progress.verdict? : Progress σ τ → Option (Except Fault State)
  | .halted m => some (.ok m.state)
  | .failed (.fault f) _ => some (.error f)
  | _ => none

theorem Progress.verdict?_map {σ' : Type*} {τ' : Type*} (f : σ → σ') (g : τ → τ')
    (p : Progress σ τ) :
    (p.map f g).verdict? = p.verdict? := by
  cases p with
  | running m => rfl
  | halted m => rfl
  | failed why m => cases why <;> rfl

theorem Ending.ofProgress_of_verdict? {p : Progress Source Sink}
    {verdict : Except Fault State} (h : p.verdict? = some verdict) (config : Config) :
    Ending.ofProgress config p =
      (p.machine.environment.report verdict p.machine.state.steps,
        p.machine.environment) := by
  cases p with
  | running m => cases h
  | halted m =>
      cases h
      rfl
  | failed why m =>
      cases why with
      | fault f =>
          cases h
          rfl
      | breakdown b => cases h

variable [ByteSource σ] {config : Config} {limit : Setting}

theorem execute_patience [ByteSink τ] (hlimit : config.maxSteps = some limit)
    (patience other : Nat) (program : Program) (source : σ) (sink : τ) :
    execute patience config program source sink =
      execute other config program source sink := by
  simp only [execute, Config.fuel, hlimit]

/-- A run with a budget ends. -/
theorem execute_limited_ended [ByteSink τ] (hlimit : config.maxSteps = some limit)
    {source : σ} {sink : τ} {start : Machine σ τ}
    (hboot : Machine.boot config source sink = .running start) (patience : Nat)
    (program : Program) :
    (execute patience config program source sink).isRunning = false := by
  have hself : config.withBudget (some limit) = config := by
    rw [Config.withBudget, ← hlimit]
  have hended : (start.run (config.withBudget (some limit)) program
      (limit.value.toNat + 1)).isRunning = false :=
    (Machine.run_limited_dispatched (Machine.steps_of_boot hboot)).1
  have hfuel : config.fuel patience = limit.value.toNat + 1 := by
    simp only [Config.fuel, hlimit]
  rw [hself] at hended
  rw [execute_of_boot hboot, hfuel, hended]

/-- A run whose brackets were matched does not break down. -/
theorem execute_ne_breakdown {size : Nat} (hsize : config.tapeSize.value = size)
    (hpos : 0 < size) (hbudget : ∀ limit ∈ config.maxSteps, 1 ≤ limit.value)
    {code : List Instruction} {jumps : JumpTable} (hresolve : Loop.resolve code = .ok jumps)
    {source : σ} {sink : Sink} {start : Machine σ Sink}
    (hboot : Machine.boot config source sink = .running start) {patience : Nat}
    {b : Breakdown} {m : Machine σ Sink} :
    execute patience config ⟨code.toArray, jumps⟩ source sink ≠
      .failed (.breakdown b) m := by
  intro hfailed
  obtain ⟨k, last, hreached, hstep⟩ := exists_reached_of_execute_failed hboot hfailed
  have htrack := hreached.onTrack hsize hpos hbudget fun _ _ htarget =>
    (Loop.nonneg_of_resolve hresolve htarget).trans' (by omega)
  have hexpected := htrack.step_failed hsize
    (fun _ _ hbyte => Sink.refusal?_of_isByte hbyte) hstep
  obtain ⟨s, pc, steps, rfl⟩ := htrack.placed
  have hpc : m.state.pc = pc := by
    rw [Machine.state_of_step_failed hstep, Store.pc_machine]
  cases hexpected with
  | missingJump hjump htarget =>
      obtain ⟨target, hsome, -⟩ := Machine.exists_target_of_takesJump hresolve hpc hjump
      rw [← hpc, htarget] at hsome
      cases hsome

/-- A program that was loaded, run with a budget on a tape that fits, comes to a
verdict. -/
theorem exists_verdict (htape : 1 ≤ config.tapeSize.value)
    (hfits : tapeBreakdown? config.tapeSize.value = none)
    (hlimit : config.maxSteps = some limit) (hone : 1 ≤ limit.value)
    {text : String} {program : Program} (hload : Program.load text = .ok program)
    (patience : Nat) (source : σ) (sink : Sink) :
    ∃ verdict, (execute patience config program source sink).verdict? = some verdict := by
  obtain ⟨size, hsize⟩ := Int.eq_ofNat_of_zero_le (show 0 ≤ config.tapeSize.value by omega)
  have hpos : 0 < size := by omega
  have hboot := Store.boot_eq hsize hpos (hsize ▸ hfits) source sink
  have hbudget : ∀ limit ∈ config.maxSteps, 1 ≤ limit.value := by
    rintro other hother
    obtain rfl := Option.some.inj (hlimit.symm.trans hother)
    exact hone
  obtain ⟨jumps, hresolve, rfl⟩ := Program.exists_resolve_of_load hload
  cases hrun : execute patience config ⟨(tokenize text).toArray, jumps⟩ source sink with
  | running m =>
      have hended := execute_limited_ended hlimit hboot patience
        ⟨(tokenize text).toArray, jumps⟩
      rw [hrun] at hended
      cases hended
  | halted m => exact ⟨.ok m.state, rfl⟩
  | failed why m =>
      cases why with
      | fault f => exact ⟨.error f, rfl⟩
      | breakdown b => exact absurd hrun (execute_ne_breakdown hsize hpos hbudget hresolve hboot)

end Verdicts

section Environments

/-- The environment between an inlet and an outlet, after a number of reads and with
bytes written. -/
def Environment.between (inlet : Inlet) (outlet : Outlet) (d : List UInt8) (reads : Nat)
    (written : List UInt8) : Environment :=
  { source := inlet.source d reads, sink := outlet.sink written }

theorem Environment.between_start (inlet : Inlet) (outlet : Outlet) (d : List UInt8) :
    between inlet outlet d 0 [] = { source := inlet.start d, sink := outlet.start } := by
  rw [between, inlet.source_zero, outlet.sink_nil]

variable {config : Config} {limit : Setting}

/-- Interpreting a text comes to one verdict, after as many steps and with the same
bytes written, between every inlet and every outlet. -/
theorem interpret_between (htape : 1 ≤ config.tapeSize.value)
    (hfits : tapeBreakdown? config.tapeSize.value = none)
    (hlimit : config.maxSteps = some limit) (hone : 1 ≤ limit.value) (text : String)
    (d : List UInt8) :
    ∃ verdict steps reads written, ∀ patience inlet outlet,
      interpret patience config (.text text) (.between inlet outlet d 0 []) =
        ((Environment.between inlet outlet d reads written).report verdict steps,
          .between inlet outlet d reads written) := by
  cases hload : Program.load text with
  | error f =>
      refine ⟨.error f, 0, 0, [], fun patience inlet outlet => ?_⟩
      rw [interpret, attempt, Script.load, hload]
      rfl
  | ok program =>
      obtain ⟨p, hp⟩ := execute_inlet_outlet 0 config program d
      obtain ⟨verdict, hverdict⟩ := exists_verdict htape hfits hlimit hone hload 0
        (Inlet.memory.start d) Outlet.buffer.start
      rw [hp, Progress.verdict?_map] at hverdict
      refine ⟨verdict, p.machine.state.steps, p.machine.source, p.machine.sink,
        fun patience inlet outlet => ?_⟩
      have hrun : attempt patience config (.text text) (.between inlet outlet d 0 []) =
          .ok (p.map (inlet.source d) outlet.sink) := by
        rw [attempt, Script.load, hload, Environment.between_start]
        exact congrArg Except.ok ((execute_patience hlimit patience 0 program _ _).trans
          (hp inlet outlet))
      have hpicture : (p.map (inlet.source d) outlet.sink).verdict? = some verdict := by
        rw [Progress.verdict?_map, hverdict]
      rw [interpret, hrun]
      refine (Ending.ofProgress_of_verdict? hpicture config).trans ?_
      rw [Progress.machine_map]
      rfl

end Environments

section Reports

/-- What a report means to those who only see an exit: its status, the line on
standard error, and the message. -/
inductive Report.Tells (r : Report) : Nat → String → Option String → Prop
  | success
      (hsuccess : r.success = true)
      (hkind : r.errorKind? = none)
      (herrors : r.errors = []) :
      Report.Tells r 0 "" none
  | failure {kind message : String}
      (hsuccess : r.success = false)
      (hkind : r.errorKind? = some kind)
      (herrors : r.errors = [message]) :
      Report.Tells r 1 ("Error: " ++ kind ++ ": " ++ message ++ "\n") (some message)

/-- The status and the line of the command line and the message of the service are
those of the report. -/
theorem Report.tells (r : Report) :
    r.Tells (if r.success then 0 else 1) (CommandLine.failureLine r)
      (Service.ExecuteAnswer.ofReport r).error? := by
  obtain ⟨verdict, output, outputSize, steps⟩ := r
  cases verdict with
  | ok state => exact .success rfl rfl rfl
  | error f =>
      have hmessage : "; ".intercalate [f.message] = f.message :=
        String.intercalate_singleton
      have hline : CommandLine.failureLine ⟨.error f, output, outputSize, steps⟩ =
          "Error: " ++ f.kind ++ ": " ++ "; ".intercalate [f.message] ++ "\n" := rfl
      have herror :
          (Service.ExecuteAnswer.ofReport ⟨.error f, output, outputSize, steps⟩).error? =
            some ("; ".intercalate [f.message]) := rfl
      rw [hline, herror, hmessage]
      exact .failure rfl rfl rfl

/-- The report of a run as it is printed. -/
theorem Report.Tells.pretty_fields {r : Report} {status : Nat} {line : String}
    {error? : Option String} (h : r.Tells status line error?) :
    (Json.object (r.fields ++ [("execution_time_ms", .number 0 1)])).pretty =
      "\x7b" ++ ",".intercalate
          [ "\n  \"success\": " ++ (if r.success then "true" else "false"),
            "\n  \"output\": " ++ Json.escaped (Text.latin1 r.output),
            "\n  \"output_size\": " ++ toString r.outputSize,
            "\n  \"steps\": " ++ toString r.steps,
            "\n  \"error_kind\": " ++ r.errorKind?.elim "null" fun kind => "\"" ++ kind ++ "\"",
            "\n  \"errors\": " ++
              error?.elim "[]" fun message => "[\n    " ++ Json.escaped message ++ "\n  ]",
            "\n  \"execution_time_ms\": 0.0" ] ++ "\n\x7d" := by
  have hsuccess : Json.fieldLine 1 ("success", .bool r.success) =
      "\n  \"success\": " ++ (if r.success then "true" else "false") :=
    Json.fieldLine_eq rfl rfl
  have houtput : Json.fieldLine 1 ("output", .text (Text.latin1 r.output)) =
      "\n  \"output\": " ++ Json.escaped (Text.latin1 r.output) :=
    Json.fieldLine_eq rfl rfl
  have hsize : Json.fieldLine 1 ("output_size", .nat r.outputSize) =
      "\n  \"output_size\": " ++ toString r.outputSize :=
    Json.fieldLine_eq rfl rfl
  have hsteps : Json.fieldLine 1 ("steps", .int r.steps) =
      "\n  \"steps\": " ++ toString r.steps :=
    Json.fieldLine_eq rfl rfl
  have hkind : Json.fieldLine 1 ("error_kind", .option (r.errorKind?.map .text)) =
      "\n  \"error_kind\": " ++ r.errorKind?.elim "null" fun kind => "\"" ++ kind ++ "\"" := by
    refine Json.fieldLine_eq rfl ?_
    rw [errorKind?]
    cases r.fault? with
    | none => rfl
    | some f => exact Json.escaped_of_plain f.plain_kind
  have herrors : Json.fieldLine 1 ("errors", .list (r.errors.map .text)) =
      "\n  \"errors\": " ++
        error?.elim "[]" fun message => "[\n    " ++ Json.escaped message ++ "\n  ]" := by
    refine Json.fieldLine_eq rfl ?_
    cases h with
    | success _ _ hnone =>
        rw [hnone]
        rfl
    | failure _ _ hone =>
        have hopen : "[" ++ Json.lineStart 2 = "[\n    " := rfl
        have hclose : Json.lineStart 1 ++ "]" = "\n  ]" := rfl
        rw [hone, List.map_singleton, Json.prettyAt, Json.prettyItems, String.append_empty,
          String.append_assoc, hopen, hclose]
        rfl
  have htime : Json.fieldLine 1 ("execution_time_ms", .number 0 1) =
      "\n  \"execution_time_ms\": 0.0" := rfl
  rw [Json.pretty, fields, List.cons_append, Json.prettyAt_object]
  simp only [List.map_cons, List.map_nil, List.cons_append, List.nil_append, hsuccess, houtput,
    hsize, hsteps, hkind, herrors, htime]
  rfl

namespace CommandLine

/-- A command that is not asked for a journal ends with the report of its run. -/
theorem runCommand_of_interpret {patience : Nat} {inv : Invocation}
    (hverbose : inv.verbose = false) {source : String} {stdin : List UInt8} {r : Report}
    {after : Environment}
    (h : interpret patience inv.config (.text source) (inv.environment stdin) =
      (.reported r, after)) :
    runCommand patience inv source stdin =
      some
        { status := if r.success then 0 else 1
          stdout :=
            if inv.json then Exit.utf8 (reportText r) else after.sink.carried?.getD []
          stderr := failureLine r } := by
  rw [interpret] at h
  simp only [runCommand, h, hverbose, Bool.false_eq_true, if_false, String.empty_append]

/-- Where the output of a run goes: it is kept for a report, or leaves byte by byte. -/
def outlet (json : Bool) : Outlet :=
  if json then .buffer else .stream true

theorem environment_ofJob (job : Service.ExecuteRequest) (json : Bool) (stdin : List UInt8) :
    (Invocation.ofJob job json).environment stdin =
      .between .stream (outlet json) stdin 0 [] := by
  rw [Environment.between_start]
  cases json <;> rfl

/-- The exit of the words of a run. -/
theorem main?_of_interpret {patience : Nat} {job : Service.ExecuteRequest}
    (htape : job.tapeSize ∈ Set.Icc 1 1000000) (hsteps : job.maxSteps ∈ Set.Icc 1 1000000)
    {json : Bool} {r : Report} {after : Environment}
    (h : interpret patience job.config (.text job.source)
      (.between .stream (outlet json) job.input 0 []) = (.reported r, after))
    (files : Files) :
    main? patience files job.input (runWords job json) =
      some
        { status := if r.success then 0 else 1
          stdout := if json then Exit.utf8 (reportText r) else after.sink.carried?.getD []
          stderr := failureLine r } := by
  rw [← environment_ofJob] at h
  rw [main?_runWords patience files job.input htape hsteps json]
  exact runCommand_of_interpret rfl h

end CommandLine

theorem Service.respond_execute (patience : Nat) (probe : Probe) (body? : Option Json) :
    respond patience probe ⟨"POST", "/api/v1/execute", body?⟩ = executeEndpoint body? := by
  have hroute : routeOf? "/api/v1/execute" = some .execute := by decide
  rw [respond, hroute]
  rfl

end Reports

section Agreement

variable (job : Service.ExecuteRequest)

/-- **All front ends report the same run.**  For every program text, input and policy,
and a tape size and a budget between one and a million, the configuration is accepted
and a call gives a report.  The service answers with that report, its output as text
with one character for each byte.  The command line writes the output of the report and
nothing else to standard output, or the report itself if it is asked for one, printed
with a field on each line.  Either way it ends with status zero if the report is one of
success, and else with status one and a line of its kind and its only message on
standard error. -/
theorem front_ends_agree (htape : job.tapeSize ∈ Set.Icc 1 1000000)
    (hsteps : job.maxSteps ∈ Set.Icc 1 1000000) :
    Config.ofFields (some (.int job.tapeSize)) (some (.text job.eof.name))
        (some (.int job.maxSteps)) = .ok job.config
      ∧
    ∃ (r : Report) (status : Nat) (line : String) (error? : Option String),
      r.Tells status line error?
        ∧
      (∀ patience,
        (interpret patience job.config (.text job.source) (.ofBytes job.input)).1 =
          .reported r)
        ∧
      (∀ patience probe,
        Service.respond patience probe ⟨"POST", "/api/v1/execute", some job.toJson⟩ =
          .ok
            (.object
              [ ("success", .bool r.success),
                ("output", .text (Text.latin1 r.output)),
                ("output_size", .nat r.outputSize),
                ("steps", .int r.steps),
                ("error_kind", .option (r.errorKind?.map .text)),
                ("error", .option (error?.map .text)) ]))
        ∧
      (∀ patience files,
        CommandLine.main? patience files job.input (CommandLine.runWords job false) =
          some { status := status, stdout := r.output, stderr := line })
        ∧
      (∀ patience files,
        CommandLine.main? patience files job.input (CommandLine.runWords job true) =
          some
            { status := status
              stdout :=
                CommandLine.Exit.utf8
                  ((Json.object
                    (r.fields ++ [("execution_time_ms", .number 0 1)])).pretty ++ "\n")
              stderr := line })
        ∧
      (Json.object (r.fields ++ [("execution_time_ms", .number 0 1)])).pretty =
          "\x7b" ++ ",".intercalate
              [ "\n  \"success\": " ++ (if r.success then "true" else "false"),
                "\n  \"output\": " ++ Json.escaped (Text.latin1 r.output),
                "\n  \"output_size\": " ++ toString r.outputSize,
                "\n  \"steps\": " ++ toString r.steps,
                "\n  \"error_kind\": " ++
                  r.errorKind?.elim "null" fun kind => "\"" ++ kind ++ "\"",
                "\n  \"errors\": " ++
                  error?.elim "[]" fun message => "[\n    " ++ Json.escaped message ++ "\n  ]",
                "\n  \"execution_time_ms\": 0.0" ] ++ "\n\x7d" := by
  have hfits : tapeBreakdown? job.tapeSize = none := by
    obtain ⟨hlow, hhigh⟩ := htape
    rw [tapeBreakdown?, addressBound, if_neg (by omega), if_neg (by omega)]
  refine ⟨job.ofFields_config htape.1 hsteps.1, ?_⟩
  obtain ⟨verdict, steps, reads, written, hall⟩ := interpret_between
    (show 1 ≤ job.config.tapeSize.value from htape.1) hfits rfl hsteps.1 job.source job.input
  refine ⟨⟨verdict, written, written.length, steps⟩, _, _, _, Report.tells _,
    fun patience => ?_, fun patience probe => ?_, fun patience files => ?_,
    fun patience files => ?_, (Report.tells _).pretty_fields⟩
  · exact congrArg Prod.fst (hall patience .memory .buffer)
  · have hending : job.ending = .reported ⟨verdict, written, written.length, steps⟩ :=
      congrArg Prod.fst (hall 0 .memory .buffer)
    rw [Service.respond_execute, Service.executeEndpoint,
      Service.ExecuteRequest.ofBody_toJson htape hsteps]
    simp only [hending]
    rfl
  · have hexit := CommandLine.main?_of_interpret htape hsteps
      (hall patience .stream (CommandLine.outlet false)) files
    rw [hexit, if_neg Bool.false_ne_true]
    rfl
  · have hexit := CommandLine.main?_of_interpret htape hsteps
      (hall patience .stream (CommandLine.outlet true)) files
    rw [hexit, if_pos rfl]
    rfl

/-- A move off a tape of one cell, after a byte was written. -/
theorem front_ends_agree_edge :
    (1 : Int) ∈ Set.Icc 1 1000000 ∧ (3 : Int) ∈ Set.Icc 1 1000000 ∧
      CommandLine.main? 0 [] [200]
          ["run", "-e", ",.>", "--eof", "error", "--tape-size", "1", "--max-steps", "3"] =
        some
          { status := 1
            stdout := [200]
            stderr :=
              "Error: PointerOutOfBounds: Data pointer moved to 1, outside tape [0, 1)\n" } := by
  have hone : (1 : Int) ∈ Set.Icc 1 1000000 := by decide
  have hthree : (3 : Int) ∈ Set.Icc 1 1000000 := by decide
  obtain ⟨-, r, status, line, error?, htells, hcall, -, hplain, -⟩ :=
    front_ends_agree ⟨",.>", [200], .error, 1, 3⟩ hone hthree
  obtain rfl : r = ⟨.error (.pointerOutOfBounds 1 (.number 1) 2), [200], 1, 2⟩ :=
    (Ending.reported.inj (hcall 0)).symm
  refine ⟨hone, hthree, (hplain 0 []).trans ?_⟩
  cases htells with
  | success hsuccess hkind herrors => cases hsuccess
  | failure hsuccess hkind herrors =>
      cases hkind
      cases herrors
      rfl

end Agreement

end TapeLang
