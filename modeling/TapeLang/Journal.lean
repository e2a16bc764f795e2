import TapeLang.Report

/-!
# The journal

What the stages of the interpreter write down while they work.

**Results.** An `Event` has a level, the name of the stage that writes it, and
a message.  `Journal.ofLoad`, `Journal.ofExecute`, `Journal.ofAttempt` and
`Journal.ofInterpret` list the events of loading, running and interpreting, in
order.
-/

namespace TapeLang

/-- How much an entry of the journal matters. -/
inductive Level where
  | debug
  | info
  | warning
  | error
deriving DecidableEq

def Level.name : Level → String
  | .debug => "DEBUG"
  | .info => "INFO"
  | .warning => "WARNING"
  | .error => "ERROR"

structure Entry where
  level : Level
  stage : String
  message : String
deriving DecidableEq

/-- An entry on a line of its own. -/
def Entry.line (e : Entry) : String :=
  e.level.name ++ " " ++ e.stage ++ ": " ++ e.message ++ "\n"

/-- What the interpreter writes down. -/
inductive Event where
  /-- A text was read: how many instructions out of how many characters. -/
  | lexed (instructions characters : Nat)
  | resolved (loops : Nat)
  | executing (instructions : Nat) (config : Config)
  | finished (steps : Int)
  | failed (fault : Fault)

def Event.entry : Event → Entry
  | .lexed instructions characters =>
      ⟨.debug, "bfi.lexer",
        "Lexed " ++ toString instructions ++ " instructions from " ++
          toString characters ++ " characters"⟩
  | .resolved loops =>
      ⟨.debug, "bfi.resolver", "Resolved " ++ toString loops ++ " loops"⟩
  | .executing instructions config =>
      ⟨.debug, "bfi.runtime.executor",
        "Executing " ++ toString instructions ++ " instructions (tape_size=" ++
          toString config.tapeSize.value ++ ", max_steps=" ++
          (config.maxSteps.map Setting.text).getD "None" ++ ")"⟩
  | .finished steps =>
      ⟨.debug, "bfi.runtime.executor",
        "Execution finished after " ++ toString steps ++ " steps"⟩
  | .failed fault =>
      ⟨.info, "bfi.runtime.interpreter", "Program failed: " ++ fault.summary⟩

namespace Journal

/-- The events of loading a text. -/
def ofLoad (source : String) : List Event :=
  let lexed := Event.lexed (tokenize source).length source.length
  match Program.load source with
  | .error _ => [lexed]
  | .ok program => [lexed, .resolved program.loopCount]

/-- The events of loading a script: a loaded program is not read again. -/
def ofScript : Script → List Event
  | .text source => ofLoad source
  | .loaded _ => []

/-- The events of a run, given how far it got.  A tape that cannot be laid out
leaves no trace. -/
def ofExecute (config : Config) (program : Program) (got : Progress Source Sink) :
    List Event :=
  match tapeBreakdown? config.tapeSize.value with
  | some _ => []
  | none =>
      let begun := Event.executing program.length config
      match got with
      | .halted m => [begun, .finished m.state.steps]
      | _ => [begun]

/-- The events of an attempt to run a script. -/
def ofAttempt (config : Config) (script : Script) (a : Attempt) : List Event :=
  ofScript script ++
    match script.load, a with
    | .ok program, .ok got => ofExecute config program got
    | _, _ => []

/-- The events of interpreting a script: those of the attempt, and the fault
that is reported. -/
def ofInterpret (config : Config) (script : Script) (a : Attempt) : List Event :=
  ofAttempt config script a ++
    match a with
    | .error fault => [.failed fault]
    | .ok (.failed (.fault fault) _) => [.failed fault]
    | .ok _ => []

end Journal
end TapeLang
