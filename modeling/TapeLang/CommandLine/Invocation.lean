import TapeLang.CommandLine.Arguments
import TapeLang.Config
import TapeLang.Text.Numeral
import TapeLang.Text.Utf8

/-!
# Invocations of a command

**Input.** The options and words of a command, and the files at hand.
**Algorithm.** Values are checked in the order in which their options were
first typed, then the program's name; only then are further words refused.  Of
an option that was typed more than once, the last value counts.
**Results.** `Invocation.ofArguments` gives the values of all parameters, and
`Invocation.programText` the program that is meant.
-/

namespace TapeLang
namespace CommandLine

inductive Command where
  | run
  | check
  | tokens
deriving DecidableEq

namespace Command

def ofName? : String → Option Command
  | "run" => some .run
  | "check" => some .check
  | "tokens" => some .tokens
  | _ => none

def commonOptions : List Spelling :=
  [ ⟨.eval, "--eval", some 'e', true⟩,
    ⟨.json, "--json-output", some 'j', false⟩ ]

def options : Command → List Spelling
  | .run =>
      commonOptions ++
        [ ⟨.input, "--input", some 'i', true⟩,
          ⟨.eof, "--eof", none, true⟩,
          ⟨.tapeSize, "--tape-size", none, true⟩,
          ⟨.maxSteps, "--max-steps", none, true⟩,
          ⟨.verbose, "--verbose", some 'v', false⟩ ]
  | _ => commonOptions

end Command

abbrev Files :=
  List (String × List UInt8)

/-- Where bytes are read from. -/
inductive Origin where
  | stdin
  | file (bytes : List UInt8)
deriving DecidableEq

/-- What a name stands for: a hyphen for standard input, else a file. -/
def Origin.ofName? (files : Files) (name : String) : Option Origin :=
  if name = "-" then
    some .stdin
  else
    (files.lookup name).map .file

/-- The values of a command's parameters. -/
structure Invocation where
  program? : Option Origin := none
  code? : Option String := none
  json : Bool := false
  verbose : Bool := false
  input? : Option Origin := none
  eof : EofPolicy := .error
  tapeSize : Int := defaultTapeSize
  maxSteps? : Option Int := none
deriving DecidableEq

namespace Invocation

section Values

/-- A number that has to be at least one. -/
def positive (parameter text : String) : Except UsageFault Int :=
  match Text.readInteger? text with
  | none => .error (.badValue parameter (.notInteger text))
  | some n =>
      if n < 1 then .error (.badValue parameter (.belowOne n)) else .ok n

/-- One of the policies for the end of input. -/
def policy (parameter text : String) : Except UsageFault EofPolicy :=
  match EofPolicy.ofName? text with
  | some eof => .ok eof
  | none =>
      .error
        (.badValue parameter (.unknownChoice text (EofPolicy.all.map EofPolicy.name)))

/-- Something that can be read. -/
def origin (files : Files) (parameter name : String) : Except UsageFault Origin :=
  match Origin.ofName? files name with
  | some origin => .ok origin
  | none => .error (.badValue parameter (.noSuchFile name))

end Values

/-- Takes one option into account. -/
def set (files : Files) (inv : Invocation) (option : Typed) :
    Except UsageFault Invocation :=
  let text := option.value?.getD ""
  match option.flag with
  | .version => .ok inv
  | .eval => .ok { inv with code? := some text }
  | .json => .ok { inv with json := true }
  | .verbose => .ok { inv with verbose := true }
  | .input => do
      let input ← origin files "'--input' / '-i'" text
      return { inv with input? := some input }
  | .eof => do
      let eof ← policy "'--eof'" text
      return { inv with eof := eof }
  | .tapeSize => do
      let n ← positive "'--tape-size'" text
      return { inv with tapeSize := n }
  | .maxSteps => do
      let n ← positive "'--max-steps'" text
      return { inv with maxSteps? := some n }

/-- Takes the words of a command into account: the program's name, and no
other. -/
def setWords (files : Files) (inv : Invocation) :
    List String → Except UsageFault Invocation
  | [] => .ok inv
  | name :: extra => do
      let program ← origin files "'[PROGRAM]'" name
      if extra.isEmpty then
        return { inv with program? := some program }
      else
        .error (.extraArguments extra)

/-- The invocation that options and words make. -/
def ofArguments (files : Files) (a : Arguments) : Except UsageFault Invocation := do
  let inv ← a.final.foldlM (set files) {}
  setWords files inv a.words

/-- The program that runs when none is given; it greets the world. -/
def exampleProgram : String :=
  "++++++++[>++++[>++>+++>+++>+<<<<-]>+>+>->>+[<]<-]" ++
    ">>.>---.+++++++..+++.>>.<-.<.+++.------.--------.>>+.>++."

/-- The text of the program: given on the command line, read from its origin,
or the example. -/
def programText (inv : Invocation) (stdin : List UInt8) : Except UsageFault String :=
  match inv.code?, inv.program? with
  | some _, some _ => .error .programAndCode
  | some code, none => .ok code
  | none, some (.file bytes) => .ok (Text.ofFile bytes)
  | none, some .stdin => .ok (Text.ofFile stdin)
  | none, none => .ok exampleProgram

/-- The input of the program.  Standard input is used up once the program was
read from it. -/
def programInput (inv : Invocation) (stdin : List UInt8) : List UInt8 :=
  match inv.input? with
  | some (.file bytes) => bytes
  | _ => if inv.program? = some .stdin then [] else stdin

def config (inv : Invocation) : Config :=
  { tapeSize := .number inv.tapeSize
    eof := inv.eof
    maxSteps := inv.maxSteps?.map .number }

end Invocation
end CommandLine
end TapeLang
