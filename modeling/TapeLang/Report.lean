import TapeLang.Machine.Run
import TapeLang.Text.Utf8

/-!
# Interpreting programs

**Input.** A program text or a loaded program, and an environment.
**Results.** `interpret` runs it and reports the outcome; faults of the
language never escape it, and output written before a fault is kept.  `runText`
runs a text on given input and gives its output or what stopped it.
-/

namespace TapeLang

/-- What can be interpreted: a text, or a program loaded before. -/
inductive Script where
  | text (source : String)
  | loaded (program : Program)

/-- The program of a script, or its first bracket fault. -/
def Script.load : Script → Except Fault Program
  | .text source => Program.load source
  | .loaded program => .ok program

/-- The outcome of interpreting a script. -/
structure Report where
  /-- The final state, or the fault that ended the run. -/
  verdict : Except Fault State
  /-- Everything that the environment has captured. -/
  output : List UInt8
  outputSize : Nat
  steps : Int

namespace Report

def fault? (r : Report) : Option Fault :=
  match r.verdict with
  | .ok _ => none
  | .error f => some f

def state? (r : Report) : Option State :=
  match r.verdict with
  | .ok s => some s
  | .error _ => none

def success (r : Report) : Bool :=
  r.fault?.isNone

def errorKind? (r : Report) : Option String :=
  r.fault?.map Fault.kind

/-- The messages of the run: one for a fault, none otherwise. -/
def errors (r : Report) : List String :=
  (r.fault?.map Fault.message).toList

/-- The fields of a report in the order in which they are listed. -/
def fields (r : Report) : List (String × Json) :=
  [ ("success", .bool r.success),
    ("output", .text (Text.latin1 r.output)),
    ("output_size", .nat r.outputSize),
    ("steps", .int r.steps),
    ("error_kind", .option (r.errorKind?.map .text)),
    ("errors", .list (r.errors.map .text)) ]

end Report

/-- How interpreting a script ended. -/
inductive Ending where
  | reported (r : Report)
  /-- With a breakdown, which is not reported. -/
  | brokeDown (why : Breakdown)
  /-- Not at all: the caller's patience was not enough. -/
  | unfinished

/-- A report on an environment, given the verdict and the steps. -/
def Environment.report (env : Environment) (verdict : Except Fault State)
    (steps : Int) : Ending :=
  .reported
    { verdict := verdict
      output := env.captured
      outputSize := env.outputSize
      steps := steps }

def Machine.environment (m : Machine Source Sink) : Environment :=
  { source := m.source, sink := m.sink }

def Environment.execute (env : Environment) (patience : Nat) (config : Config)
    (program : Program) : Progress Source Sink :=
  TapeLang.execute patience config program env.source env.sink

/-- The ending that a stop comes to in an environment.  A fault is reported with
the steps that it has on record. -/
def Ending.ofStop (env : Environment) (stop : Stop) : Ending :=
  match stop.why with
  | .fault f => env.report (.error f) stop.steps
  | .breakdown b => .brokeDown b

/-- The ending of a run of the machine, and the environment after it. -/
def Ending.ofProgress (config : Config) :
    Progress Source Sink → Ending × Environment
  | .halted m =>
      (m.environment.report (.ok m.state) m.state.steps, m.environment)
  | .failed why m => (.ofStop m.environment (m.stop config why), m.environment)
  | .running m => (.unfinished, m.environment)

/-- What a fault raises that keeps a script from being loaded. -/
def Stop.unloaded (f : Fault) : Stop :=
  { why := .fault f, record? := none }

/-- What came of running a script: the fault that kept it from being loaded, or
how far the machine got. -/
abbrev Attempt :=
  Except Fault (Progress Source Sink)

namespace Attempt

/-- The ending of an attempt that began in an environment, and the environment
after it. -/
def ending (config : Config) (a : Attempt) (env : Environment) :
    Ending × Environment :=
  match a with
  | .error f => (.ofStop env (.unloaded f), env)
  | .ok progress => Ending.ofProgress config progress

/-- The captured output of an attempt, or what stopped it; `none` if the
caller's patience was not enough. -/
def output? (config : Config) : Attempt → Option (Except Stop (List UInt8))
  | .error f => some (.error (.unloaded f))
  | .ok (.halted m) => some (.ok m.environment.captured)
  | .ok (.failed why m) => some (.error (m.stop config why))
  | .ok (.running _) => none

end Attempt

def attempt (patience : Nat) (config : Config) (script : Script)
    (env : Environment) : Attempt :=
  script.load.map (env.execute patience config)

/-- Interprets a script; the environment after it goes with the ending. -/
def interpret (patience : Nat) (config : Config) (script : Script)
    (env : Environment) : Ending × Environment :=
  (attempt patience config script env).ending config env

/-- Runs a program text on input in memory and gives its output, or what
stopped it; `none` if the caller's patience was not enough. -/
def runText (patience : Nat) (config : Config) (source : String)
    (input : List UInt8) : Option (Except Stop (List UInt8)) :=
  (attempt patience config (.text source) (.ofBytes input)).output? config

end TapeLang
