import TapeLang.CommandLine.Invocation
import TapeLang.Journal
import TapeLang.Release
import TapeLang.Validation

/-!
# The commands

**Input.** The words after the program's name, standard input, and the files
at hand.
**Results.** `main?` gives the exit status, and what goes to standard output
and to standard error.  It gives nothing only if a program without a step
budget was still running when the caller's patience ended.  Texts of help are
left out: a line that asks for help, or names no command, ends as a fault of
usage.
-/

namespace TapeLang
namespace CommandLine

/-- How a command ends. -/
structure Exit where
  status : Nat
  stdout : List UInt8
  stderr : String
deriving DecidableEq

namespace Exit

def utf8 (s : String) : List UInt8 :=
  s.toUTF8.data.toList

/-- Ends well, with a text on standard output. -/
def printing (s : String) : Exit :=
  { status := 0, stdout := utf8 s, stderr := "" }

/-- Ends with a fault of usage. -/
def usage (fault : UsageFault) : Exit :=
  { status := 2, stdout := [], stderr := "Error: " ++ fault.message ++ "\n" }

end Exit

section Commands

/-- The line that tells why a program failed. -/
def failureLine (r : Report) : String :=
  match r.fault? with
  | none => ""
  | some fault =>
      "Error: " ++ fault.kind ++ ": " ++ "; ".intercalate r.errors ++ "\n"

/-- The report of a run as it is printed.  Time is not measured: it stands as
zero. -/
def reportText (r : Report) : String :=
  (Json.object (r.fields ++ [("execution_time_ms", .number 0 1)])).pretty ++ "\n"

/-- The environment of a run: its output is kept for a report, else it goes to
standard output byte by byte. -/
def Invocation.environment (inv : Invocation) (stdin : List UInt8) : Environment :=
  { source := .ofStream (inv.programInput stdin)
    sink := if inv.json then .newBuffer else .newStream true }

def runCommand (patience : Nat) (inv : Invocation) (source : String)
    (stdin : List UInt8) : Option Exit :=
  let env := inv.environment stdin
  let script := Script.text source
  let tried := attempt patience inv.config script env
  let journal :=
    if inv.verbose then
      String.join
        ((Journal.ofInterpret inv.config script tried).map fun e => e.entry.line)
    else
      ""
  match tried.ending inv.config env with
  | (.reported r, after) =>
      some
        { status := if r.success then 0 else 1
          stdout :=
            if inv.json then
              Exit.utf8 (reportText r)
            else
              after.sink.carried?.getD []
          stderr := journal ++ failureLine r }
  | (.brokeDown _, after) =>
      some
        { status := 1
          stdout := after.sink.carried?.getD []
          stderr := journal }
  | (.unfinished, _) => none

/-- Checks a program's brackets. -/
def checkCommand (inv : Invocation) (source : String) : Exit :=
  let v := validate source
  let record := v.toJson.pretty ++ "\n"
  if v.valid then
    if inv.json then
      .printing record
    else
      .printing
        ("✓ Program valid\n  Instructions: " ++ toString v.instructionCount ++
          "\n  Loops: " ++ toString v.loopCount ++ "\n")
  else
    { status := 1, stdout := [], stderr := record }

def tokensCommand (inv : Invocation) (source : String) : Exit :=
  let code := tokenize source
  if inv.json then
    .printing ((Json.list (code.map fun i => .text i.name)).line ++ "\n")
  else
    .printing (render code ++ "\n")

def Command.perform (command : Command) (patience : Nat) (files : Files)
    (stdin : List UInt8) (words : List String) : Option Exit :=
  let prepared := do
    let arguments ← split command.options true words
    let inv ← Invocation.ofArguments files arguments
    let source ← inv.programText stdin
    return (inv, source)
  match prepared with
  | .error fault => some (.usage fault)
  | .ok (inv, source) =>
      match command with
      | .run => runCommand patience inv source stdin
      | .check => some (checkCommand inv source)
      | .tokens => some (tokensCommand inv source)

end Commands

def globalOptions : List Spelling :=
  [⟨.version, "--version", none, false⟩]

/-- The version, on a line of its own. -/
def versionExit : Exit :=
  .printing (programName ++ ", version " ++ versionNumber ++ "\n")

/-- The exit of a word that names no command.  It is read once more, now as an
option. -/
def unknownCommand (name : String) (rest : List String) : Exit :=
  match split globalOptions false (name :: rest) with
  | .error fault => .usage fault
  | .ok arguments =>
      if arguments.has .version then versionExit else .usage (.noSuchCommand name)

/-- The whole command line.  An empty one is a fault of usage, for there is no
help to print. -/
def main? (patience : Nat) (files : Files) (stdin : List UInt8)
    (words : List String) : Option Exit :=
  match split globalOptions false words with
  | .error fault => some (.usage fault)
  | .ok arguments =>
      if arguments.has .version then
        some versionExit
      else
        match arguments.words with
        | [] => some (.usage .commandMissing)
        | name :: rest =>
            match Command.ofName? name with
            | none => some (unknownCommand name rest)
            | some command => command.perform patience files stdin rest

/-- What a command line needs from outside. -/
structure Needs where
  files : List String
  stdin : Bool

/-- What a command line needs from outside; a faulty one needs nothing. -/
def needs (words : List String) : Needs :=
  let prepared := do
    let first ← split globalOptions false words
    let command ←
      match first.words with
      | name :: _ => (Command.ofName? name).elim (.error .commandMissing) .ok
      | [] => .error .commandMissing
    let arguments ← split command.options true (first.words.drop 1)
    return (command, arguments)
  match prepared with
  | .error _ => { files := [], stdin := false }
  | .ok (command, arguments) =>
      let inputs := (arguments.final.filter (·.flag == .input)).filterMap (·.value?)
      let named := inputs ++ arguments.words.take 1
      { files := named.filter (· ≠ "-")
        stdin := named.contains "-" || (command == .run && inputs.isEmpty) }

end CommandLine
end TapeLang
