import Mathlib.Tactic
import TapeLang.Proofs.EntryPoints
import TapeLang.Proofs.PrintedText

/-!
# What validation says about loading

A program text can be checked without being run, by a message to the service or on the
command line.

**Input.** A program text, whether its brackets match or not.
**Algorithm.** Validation counts the opening brackets and lists the faults of the pass
over the brackets; loading makes a jump table of the pairs of the same pass.  A bracket
that is read makes a pair, is stray or is pending, so both counts of brackets can be read
off the pass: `count_loopOpen` and `count_loopClose`.  A table has two entries for a pair
by `JumpTable.size_ofPairs`.
**Results.** `Validation.pretty_toJson` is the record of a validation as it is printed.
`validation_predicts_loading`: the service and the command line report one validation,
which is without faults if and only if the text is loaded, begins with the fault that
loading stops at, and counts the loops of the program that is loaded.
-/

namespace TapeLang

namespace JumpTable

variable {table : JumpTable} {pairs : List (Nat × Nat)}

theorem size_insert_of_none {source : Int} (h : table.target? source = none) (target : Int) :
    (table.insert source target).size = table.size + 1 := by
  have hnot : table.entries.contains source = false := by
    rw [Std.TreeMap.contains_eq_isSome_getElem?]
    exact congrArg Option.isSome h
  rw [insert, size, Std.TreeMap.size_insert, hnot]
  rfl

theorem size_link {pair : Nat × Nat} (hne : pair.1 ≠ pair.2)
    (hfirst : table.target? pair.1 = none) (hsecond : table.target? pair.2 = none) :
    (table.link pair).size = table.size + 2 := by
  have hother : (table.insert pair.1 pair.2).target? pair.2 = none := by
    rw [target?_insert, if_neg (by omega), hsecond]
  rw [link, size_insert_of_none hother, size_insert_of_none hfirst]

/-- Pairs that share no index, with each other or with the table, add two entries each. -/
theorem size_foldl_link (hnodup : (endpoints pairs).Nodup)
    (hfree : ∀ e ∈ endpoints pairs, table.target? e = none) :
    (pairs.foldl link table).size = table.size + 2 * pairs.length := by
  induction pairs generalizing table with
  | nil => rfl
  | cons pair pairs ih =>
      rw [endpoints_cons] at hnodup hfree
      rw [List.nodup_cons, List.nodup_cons, List.mem_cons, not_or] at hnodup
      obtain ⟨⟨hne, hfirst⟩, hsecond, hrest⟩ := hnodup
      have hlater : ∀ e ∈ endpoints pairs, (table.link pair).target? e = none := by
        intro e he
        have hne1 : e ≠ pair.1 := fun h => hfirst (h ▸ he)
        have hne2 : e ≠ pair.2 := fun h => hsecond (h ▸ he)
        rw [target?_link, if_neg (by omega), if_neg (by omega)]
        exact hfree e (by simp [he])
      rw [List.foldl_cons, ih hrest hlater,
        size_link hne (hfree _ (by simp)) (hfree _ (by simp)), List.length_cons]
      omega

theorem size_ofPairs (hnodup : (endpoints pairs).Nodup) :
    (ofPairs pairs).size = 2 * pairs.length := by
  rw [ofPairs, size_foldl_link hnodup fun e _ => target?_empty e]
  exact Nat.zero_add _

end JumpTable

namespace Loop

namespace Scan

/-- The opening brackets of a pass are those of its pairs and the pending ones, and an
instruction that is read adds itself to them if it is one. -/
theorem opens_visit (s : Scan) (x : Instruction) :
    (s.visit x).pairs.length + (s.visit x).pending.length =
      s.pairs.length + s.pending.length + [x].count .loopOpen := by
  cases x with
  | loopOpen => rfl
  | loopClose =>
      cases hp : s.pending with
      | nil => simp [visit, hp]
      | cons opening outer =>
          have hnone : [Instruction.loopClose].count .loopOpen = 0 := rfl
          simp only [visit, hp, List.length_cons, hnone]
          omega
  | _ => rfl

theorem closes_visit (s : Scan) (x : Instruction) :
    (s.visit x).pairs.length + (s.visit x).strays.length =
      s.pairs.length + s.strays.length + [x].count .loopClose := by
  cases x with
  | loopClose =>
      cases hp : s.pending with
      | nil => simp [visit, hp, Nat.add_assoc]
      | cons opening outer =>
          have hone : [Instruction.loopClose].count .loopClose = 1 := rfl
          simp only [visit, hp, List.length_cons, hone]
          omega
  | _ => rfl

end Scan

section Counts

variable (code : List Instruction)

theorem count_loopOpen :
    code.count .loopOpen = (scan code).pairs.length + (scan code).pending.length := by
  induction code using List.reverseRecOn with
  | nil => rfl
  | append_singleton code x ih =>
      rw [List.count_append, ih, scan_append]
      exact ((scan code).opens_visit x).symm

theorem count_loopClose :
    code.count .loopClose = (scan code).pairs.length + (scan code).strays.length := by
  induction code using List.reverseRecOn with
  | nil => rfl
  | append_singleton code x ih =>
      rw [List.count_append, ih, scan_append]
      exact ((scan code).closes_visit x).symm

theorem map_kind_faults :
    (faults code).map Fault.kind =
      List.replicate (scan code).strays.length "UnmatchedLoopClose" ++
        List.replicate (scan code).pending.length "UnmatchedLoopOpen" := by
  have hclose : Fault.kind ∘ (fun i : Nat => Fault.unmatchedClose i) =
      fun _ => "UnmatchedLoopClose" := rfl
  have hopen : Fault.kind ∘ (fun i : Nat => Fault.unmatchedOpen i) =
      fun _ => "UnmatchedLoopOpen" := rfl
  rw [faults, Scan.faults, List.map_append, List.map_map, List.map_map, hclose, hopen,
    List.map_const', List.map_const', Scan.strayCloses, Scan.unclosedOpens,
    List.length_reverse, List.length_reverse]

/-- The faults of unclosed loops. -/
theorem count_kind_open :
    ((faults code).map Fault.kind).count "UnmatchedLoopOpen" =
      (scan code).pending.length := by
  simp [map_kind_faults, List.count_replicate]

theorem count_kind_close :
    ((faults code).map Fault.kind).count "UnmatchedLoopClose" =
      (scan code).strays.length := by
  simp [map_kind_faults, List.count_replicate]

end Counts

end Loop

section Load

variable {text : String}

/-- The list of faults of a text begins with the fault that loading stops at. -/
theorem head?_faults_validate {f : Fault} :
    (validate text).faults.head? = some f ↔ Program.load text = .error f :=
  Loop.resolve_eq_error_iff_head?.symm.trans Program.load_eq_error_iff.symm

theorem valid_iff_exists_load :
    (validate text).valid = true ↔ ∃ program, Program.load text = .ok program := by
  rw [Validation.valid, List.isEmpty_iff]
  cases hload : Program.load text with
  | error f =>
      have hhead := head?_faults_validate.2 hload
      simp only [reduceCtorEq, exists_false, iff_false]
      intro hnil
      rw [hnil] at hhead
      cases hhead
  | ok program =>
      simp only [Except.ok.injEq, exists_eq', iff_true]
      rw [← List.head?_eq_none_iff, Option.eq_none_iff_forall_ne_some]
      intro f hhead
      rw [head?_faults_validate, hload] at hhead
      cases hhead

/-- A program that was loaded has the instructions and loops that validation counts. -/
theorem counts_of_load {program : Program} (h : Program.load text = .ok program) :
    (validate text).loopCount = program.loopCount ∧
      (validate text).instructionCount = program.length := by
  obtain ⟨jumps, hresolve, rfl⟩ := Program.exists_resolve_of_load h
  obtain ⟨-, hpending, rfl⟩ := Loop.resolve_eq_ok_iff.1 hresolve
  have hloops : (tokenize text).count .loopOpen = (Loop.scan (tokenize text)).pairs.length := by
    rw [Loop.count_loopOpen, hpending]
    rfl
  refine ⟨?_, ?_⟩
  · rw [Program.loopCount, JumpTable.size_ofPairs (Loop.nodup_endpoints_scan _)]
    exact hloops.trans (by omega)
  · simp [validate, Program.length]

/-- Every fault of the list names a bracket of its kind. -/
theorem exists_bracket_of_mem_faults {f : Fault} (h : f ∈ (validate text).faults) :
    ∃ i < (validate text).instructionCount,
      (f = .unmatchedClose i ∧ (tokenize text)[i]? = some .loopClose) ∨
        (f = .unmatchedOpen i ∧ (tokenize text)[i]? = some .loopOpen) := by
  rcases Loop.mem_faults.1 h with ⟨i, rfl, hstray⟩ | ⟨i, rfl, hunclosed⟩
  · exact ⟨i, hstray.lt_length, Or.inl ⟨rfl, hstray.1⟩⟩
  · exact ⟨i, hunclosed.lt_length, Or.inr ⟨rfl, hunclosed.1⟩⟩

end Load

namespace CommandLine

/-- The words after a command's name, with the files and the standard input at hand, give
the values of its parameters and a program text. -/
def Command.Poses (command : Command) (files : Files) (stdin : List UInt8)
    (words : List String) (inv : Invocation) (text : String) : Prop :=
  ∃ arguments, split command.options true words = .ok arguments ∧
    Invocation.ofArguments files arguments = .ok inv ∧ inv.programText stdin = .ok text

/-- The words that ask for a check of a text. -/
def checkWords (text : String) (json : Bool) : List String :=
  ["-e", text] ++ if json then ["--json-output"] else []

variable {files : Files} {stdin : List UInt8}

/-- Every text can be posed. -/
theorem poses_checkWords (text : String) (json : Bool) :
    Command.check.Poses files stdin (checkWords text json)
      { code? := some text, json := json } text := by
  refine ⟨⟨⟨.eval, some text⟩ :: (if json then [⟨.json, none⟩] else []), []⟩, ?_, ?_, rfl⟩
  · have hswitch : split Command.check.options true (if json then ["--json-output"] else []) =
        .ok ⟨if json then [⟨.json, none⟩] else [], []⟩ := by
      cases json <;> decide
    rw [checkWords, List.cons_append, List.cons_append, List.nil_append,
      split_value .eval "-e" (by decide) (by decide) rfl, hswitch]
    rfl
  · cases json <;> rfl

theorem main?_check {words : List String} {inv : Invocation} {text : String}
    (h : Command.check.Poses files stdin words inv text) (patience : Nat) :
    main? patience files stdin ("check" :: words) = some (checkCommand inv text) := by
  obtain ⟨arguments, hsplit, harguments, htext⟩ := h
  have hfirst : split globalOptions false ("check" :: words) = .ok ⟨[], "check" :: words⟩ := rfl
  have hname : Command.ofName? "check" = some .check := rfl
  rw [main?, hfirst]
  simp only [Arguments.has, List.any_nil, Bool.false_eq_true, if_false, hname,
    Command.perform, hsplit, ok_bind, harguments, htext]
  rfl

end CommandLine

namespace Service

variable {fields : List (String × Json)} {text : String}

theorem respond_validate (h : (Json.object fields).field? "source" = some (.text text))
    (patience : Nat) (probe : Probe) :
    respond patience probe ⟨"POST", "/api/v1/validate", some (.object fields)⟩ =
      .ok (validate text).toJson := by
  have hroute : routeOf? "/api/v1/validate" = some .validate := by decide
  have hsource : requiredField (.object fields) "source" readText = .ok text := by
    rw [requiredField, h]
    rfl
  have hbody : ValidateRequest.ofBody (some (.object fields)) = .ok ⟨text⟩ := by
    have hobject : readObject (some (.object fields)) = .ok (.object fields) := rfl
    rw [ValidateRequest.ofBody, hobject, ok_bind, hsource]
  have hendpoint : respond patience probe ⟨"POST", "/api/v1/validate", some (.object fields)⟩ =
      validateEndpoint (some (.object fields)) := by
    rw [respond, hroute]
    rfl
  rw [hendpoint, validateEndpoint, hbody]

/-- A request to run a text that is not loaded is answered with the fault. -/
theorem respond_execute_of_load_error {body? : Option Json} {job : ExecuteRequest} {f : Fault}
    (hjob : ExecuteRequest.ofBody body? = .ok job) (hload : Program.load job.source = .error f)
    (patience : Nat) (probe : Probe) :
    respond patience probe ⟨"POST", "/api/v1/execute", body?⟩ =
      .ok
        (.object
          [ ("success", .bool false),
            ("output", .text ""),
            ("output_size", .nat 0),
            ("steps", .int 0),
            ("error_kind", .text f.kind),
            ("error", .text f.message) ]) := by
  have hending : job.ending = .reported ⟨.error f, [], 0, 0⟩ :=
    congrArg Prod.fst (interpret_of_load_error 0 job.config hload (.ofBytes job.input))
  have hmessage : "; ".intercalate [f.message] = f.message := String.intercalate_singleton
  rw [respond_execute, executeEndpoint, hjob]
  simp only [hending]
  conv_rhs => rw [← hmessage]
  rfl

end Service

section Printed

namespace Fault

/-- The record of a bracket fault as it is printed in a list of faults. -/
def printed (f : Fault) : String :=
  "\x7b" ++ ",".intercalate
      [ "\n      \"kind\": \"" ++ f.kind ++ "\"",
        "\n      \"message\": \"" ++ f.message ++ "\"",
        "\n      \"index\": " ++ f.index?.elim "" toString ] ++ "\n    \x7d"

/-- A list of faults as it is printed in a record. -/
def printedList : List Fault → String
  | [] => "[]"
  | first :: rest =>
      "[" ++ ",".intercalate ((first :: rest).map fun f => "\n    " ++ f.printed) ++ "\n  ]"

/-- A fault that names a bracket of the code. -/
def NamesBracket (f : Fault) : Prop :=
  ∃ i : Nat, f = .unmatchedClose i ∨ f = .unmatchedOpen i

variable {f : Fault} (h : f.NamesBracket)
include h

theorem NamesBracket.plain_message : Json.plain f.message = true := by
  obtain ⟨i, rfl | rfl⟩ := h
  · exact Json.plain_append (Json.plain_append rfl rfl) (Json.plain_toString i)
  · exact Json.plain_append (Json.plain_append rfl rfl) (Json.plain_toString i)

theorem NamesBracket.toJson_eq :
    ∃ i : Int, f.index? = some i ∧ f.toJson =
      .object [("kind", .text f.kind), ("message", .text f.message), ("index", .int i)] := by
  obtain ⟨i, rfl | rfl⟩ := h
  · exact ⟨i, rfl, rfl⟩
  · exact ⟨i, rfl, rfl⟩

/-- The record of a fault is printed in three lines between its brackets. -/
theorem NamesBracket.prettyAt_toJson : Json.prettyAt 2 f.toJson = f.printed := by
  obtain ⟨i, hindex, hrecord⟩ := h.toJson_eq
  have hkind : Json.fieldLine 3 ("kind", .text f.kind) =
      "\n      \"kind\": \"" ++ f.kind ++ "\"" :=
    Json.fieldLine_text rfl f.plain_kind
  have hmessage : Json.fieldLine 3 ("message", .text f.message) =
      "\n      \"message\": \"" ++ f.message ++ "\"" :=
    Json.fieldLine_text rfl h.plain_message
  have hplace : Json.fieldLine 3 ("index", .int i) = "\n      \"index\": " ++ toString i :=
    Json.fieldLine_eq rfl rfl
  rw [hrecord, Json.prettyAt_object, printed, hindex]
  simp only [List.map_cons, List.map_nil, hkind, hmessage, hplace]
  rfl

end Fault

theorem prettyAt_faults {faults : List Fault} (h : ∀ f ∈ faults, f.NamesBracket) :
    Json.prettyAt 1 (.list (faults.map Fault.toJson)) = Fault.printedList faults := by
  cases faults with
  | nil => rfl
  | cons first rest =>
      have hlines : ((first :: rest).map Fault.toJson).map (Json.entryLine 2) =
          (first :: rest).map fun f => "\n    " ++ f.printed := by
        rw [List.map_map]
        refine List.map_congr_left fun f hf => ?_
        rw [Function.comp_apply, Json.entryLine, (h f hf).prettyAt_toJson]
        rfl
      rw [List.map_cons, Json.prettyAt_list, ← List.map_cons, hlines]
      rfl

/-- The record of a validation is printed in four fields. -/
theorem Validation.pretty_toJson {v : Validation} (h : ∀ f ∈ v.faults, f.NamesBracket) :
    v.toJson.pretty =
      "\x7b" ++ ",".intercalate
          [ "\n  \"valid\": " ++ (if v.valid then "true" else "false"),
            "\n  \"instruction_count\": " ++ toString v.instructionCount,
            "\n  \"loop_count\": " ++ toString v.loopCount,
            "\n  \"errors\": " ++ Fault.printedList v.faults ] ++ "\n\x7d" := by
  have hvalid : Json.fieldLine 1 ("valid", .bool v.valid) =
      "\n  \"valid\": " ++ (if v.valid then "true" else "false") :=
    Json.fieldLine_eq rfl rfl
  have hcount : Json.fieldLine 1 ("instruction_count", .nat v.instructionCount) =
      "\n  \"instruction_count\": " ++ toString v.instructionCount :=
    Json.fieldLine_eq rfl rfl
  have hloops : Json.fieldLine 1 ("loop_count", .nat v.loopCount) =
      "\n  \"loop_count\": " ++ toString v.loopCount :=
    Json.fieldLine_eq rfl rfl
  have herrors : Json.fieldLine 1 ("errors", .list (v.faults.map Fault.toJson)) =
      "\n  \"errors\": " ++ Fault.printedList v.faults :=
    Json.fieldLine_eq rfl (prettyAt_faults h)
  rw [Json.pretty, toJson, Json.prettyAt_object]
  simp only [List.map_cons, List.map_nil, hvalid, hcount, hloops, herrors]
  rfl

theorem namesBracket_of_mem_faults {text : String} {f : Fault}
    (h : f ∈ (validate text).faults) : f.NamesBracket := by
  obtain ⟨i, -, ⟨hclose, -⟩ | ⟨hopen, -⟩⟩ := exists_bracket_of_mem_faults h
  · exact ⟨i, Or.inl hclose⟩
  · exact ⟨i, Or.inr hopen⟩

end Printed

section Prediction

/-- **Validation predicts loading.**  The service and the command line report one
validation of a text, which is printed with a field on each line; the command line exits
with status zero if and only if there is no fault.  There is none if and only if the text is
loaded.  Otherwise the first fault of the list is the one that loading stops at, and
interpreting the text and running it through the service report its kind and its message.
The opening brackets of the text are those of the pairs of the pass, which are half of the
entries of its table, and those of the faults; so are the closing ones.  For a text that is
loaded, the counts are those of the program.  Every fault names the index of an instruction
that is a bracket of its kind. -/
theorem validation_predicts_loading (text : String) :
    (∃ record : Json,
      record =
          .object
            [ ("valid", .bool (validate text).valid),
              ("instruction_count", .nat (validate text).instructionCount),
              ("loop_count", .nat (validate text).loopCount),
              ("errors", .list ((validate text).faults.map Fault.toJson)) ]
        ∧
      record.pretty =
          "\x7b" ++ ",".intercalate
              [ "\n  \"valid\": " ++ (if (validate text).valid then "true" else "false"),
                "\n  \"instruction_count\": " ++ toString (validate text).instructionCount,
                "\n  \"loop_count\": " ++ toString (validate text).loopCount,
                "\n  \"errors\": " ++ Fault.printedList (validate text).faults ] ++ "\n\x7d"
        ∧
      (∀ patience probe fields, (Json.object fields).field? "source" = some (.text text) →
        Service.respond patience probe ⟨"POST", "/api/v1/validate", some (.object fields)⟩ =
          .ok record)
        ∧
      (∀ patience files stdin words inv,
        CommandLine.Command.check.Poses files stdin words inv text →
        CommandLine.main? patience files stdin ("check" :: words) =
          some
            (if (validate text).valid then
              { status := 0
                stdout :=
                  CommandLine.Exit.utf8
                    (if inv.json then
                      record.pretty ++ "\n"
                    else
                      "✓ Program valid\n  Instructions: " ++
                        toString (validate text).instructionCount ++ "\n  Loops: " ++
                        toString (validate text).loopCount ++ "\n")
                stderr := "" }
            else
              { status := 1, stdout := [], stderr := record.pretty ++ "\n" })))
      ∧
    (∀ files stdin json,
      CommandLine.Command.check.Poses files stdin (CommandLine.checkWords text json)
        { code? := some text, json := json } text)
      ∧
    ((validate text).valid = true ↔ ∃ program, Program.load text = .ok program)
      ∧
    (∀ f, (validate text).faults.head? = some f ↔ Program.load text = .error f)
      ∧
    (∀ f, Program.load text = .error f →
      (∃ i : Nat, f.toJson =
        .object
          [("kind", .text f.kind), ("message", .text f.message), ("index", .int i)])
        ∧
      (∀ patience config env, ∃ r,
        interpret patience config (.text text) env = (.reported r, env) ∧
          r.errorKind? = some f.kind ∧ r.errors = [f.message])
        ∧
      (∀ patience probe body? job, Service.ExecuteRequest.ofBody body? = .ok job →
        job.source = text →
        Service.respond patience probe ⟨"POST", "/api/v1/execute", body?⟩ =
          .ok
            (.object
              [ ("success", .bool false),
                ("output", .text ""),
                ("output_size", .nat 0),
                ("steps", .int 0),
                ("error_kind", .text f.kind),
                ("error", .text f.message) ])))
      ∧
    (∃ half,
      (JumpTable.ofPairs (Loop.scan (tokenize text)).pairs).size = 2 * half ∧
        (validate text).loopCount =
          half + ((validate text).faults.map Fault.kind).count "UnmatchedLoopOpen" ∧
        (tokenize text).count .loopClose =
          half + ((validate text).faults.map Fault.kind).count "UnmatchedLoopClose")
      ∧
    (∀ program, Program.load text = .ok program →
      (validate text).loopCount = program.loopCount ∧
        (validate text).instructionCount = program.length)
      ∧
    (∀ f ∈ (validate text).faults, ∃ i < (validate text).instructionCount,
      (f = .unmatchedClose i ∧ (tokenize text)[i]? = some .loopClose) ∨
        (f = .unmatchedOpen i ∧ (tokenize text)[i]? = some .loopOpen)) := by
  refine ⟨⟨_, rfl, Validation.pretty_toJson fun f hf => namesBracket_of_mem_faults hf,
      fun patience probe fields h => Service.respond_validate h patience probe,
      fun patience files stdin words inv h => ?_⟩,
    fun files stdin json => CommandLine.poses_checkWords text json,
    valid_iff_exists_load, fun f => head?_faults_validate, fun f hload => ⟨?_, ?_, ?_⟩,
    ⟨(Loop.scan (tokenize text)).pairs.length, ?_, ?_, ?_⟩,
    fun program => counts_of_load, fun f => exists_bracket_of_mem_faults⟩
  · rw [CommandLine.main?_check h, CommandLine.checkCommand]
    by_cases hvalid : (validate text).valid = true
    · by_cases hjson : inv.json = true
      · simp only [hvalid, hjson, if_true, Validation.toJson]
        rfl
      · simp only [hvalid, hjson, if_true, if_false, Bool.false_eq_true]
        rfl
    · simp only [hvalid, if_false, Bool.false_eq_true, Validation.toJson]
  · obtain ⟨i, rfl | rfl⟩ := Program.exists_index_of_load_error hload
    · exact ⟨i, rfl⟩
    · exact ⟨i, rfl⟩
  · intro patience config env
    exact ⟨_, interpret_of_load_error patience config hload env, rfl, rfl⟩
  · rintro patience probe body? job hjob rfl
    exact Service.respond_execute_of_load_error hjob hload patience probe
  · exact JumpTable.size_ofPairs (Loop.nodup_endpoints_scan _)
  · refine (Loop.count_loopOpen (tokenize text)).trans ?_
    rw [← Loop.count_kind_open]
    rfl
  · refine (Loop.count_loopClose (tokenize text)).trans ?_
    rw [← Loop.count_kind_close]
    rfl

/-- The text `[ ] ] + [`, with a pair, a stray bracket and an unclosed one, and the text
`+[-]`, which is loaded. -/
theorem validation_predicts_loading_mixed :
    Program.load "[ ] ] + [" = .error (.unmatchedClose 2) ∧
      (∃ record : Json,
        Service.respond 0 {} ⟨"POST", "/api/v1/validate",
            some (.object [("source", .text "[ ] ] + [")])⟩ = .ok record ∧
          CommandLine.main? 0 [] [] ("check" :: CommandLine.checkWords "[ ] ] + [" false) =
            some { status := 1, stdout := [], stderr := record.pretty ++ "\n" }) ∧
      (∃ r, interpret 0 {} (.text "[ ] ] + [") (.ofBytes []) = (.reported r, .ofBytes []) ∧
        r.errors = ["Unmatched ']' at instruction 2"]) ∧
      (∃ half, (validate "[ ] ] + [").loopCount = half + 1 ∧
        (tokenize "[ ] ] + [").count .loopClose = half + 1) ∧
      (∃ program, Program.load "+[-]" = .ok program ∧ program.loopCount = 1 ∧
        program.length = 4) := by
  have hload : Program.load "[ ] ] + [" = .error (.unmatchedClose 2) := rfl
  obtain ⟨⟨record, -, -, hservice, hcommand⟩, hposes, -, -, hfault, ⟨half, -, hopen, hclose⟩, -⟩ :=
    validation_predicts_loading "[ ] ] + ["
  obtain ⟨-, hinterpret, -⟩ := hfault _ hload
  obtain ⟨r, hr, -, herrors⟩ := hinterpret 0 {} (.ofBytes [])
  obtain ⟨-, -, hvalid, -, -, -, hcounts, -⟩ := validation_predicts_loading "+[-]"
  obtain ⟨program, hprogram⟩ := hvalid.1 rfl
  obtain ⟨hloops, hlength⟩ := hcounts program hprogram
  refine ⟨hload, ⟨record, hservice 0 {} _ rfl, ?_⟩, ⟨r, hr, herrors⟩, ⟨half, hopen, hclose⟩,
    ⟨program, hprogram, hloops.symm.trans rfl, hlength.symm.trans rfl⟩⟩
  exact hcommand 0 [] [] _ _ (hposes [] [] false)

end Prediction

end TapeLang
