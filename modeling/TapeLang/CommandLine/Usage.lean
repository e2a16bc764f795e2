import TapeLang.Text.Quoted

/-!
# Faults of usage

What can be wrong with a command line, and the words for it.  All of them but
`UsageFault.programAndCode` are those of a general reader of options; the line that
shows the form of a command, which such a reader prints before its message, is left
out.
-/

namespace TapeLang
namespace CommandLine

/-- Why a value does not fit its parameter. -/
inductive BadValue where
  | notInteger (text : String)
  | belowOne (n : Int)
  | unknownChoice (text : String) (choices : List String)
  | noSuchFile (name : String)
deriving DecidableEq

def BadValue.message : BadValue → String
  | .notInteger text => Text.quoted text ++ " is not a valid integer range."
  | .belowOne n => toString n ++ " is not in the range x>=1."
  | .unknownChoice text choices =>
      Text.quoted text ++ " is not one of " ++
        ", ".intercalate (choices.map Text.quoted) ++ "."
  | .noSuchFile name => "'" ++ name ++ "': No such file or directory"

/-- What is wrong with a command line. -/
inductive UsageFault where
  | noSuchOption (name : String)
  | argumentMissing (name : String)
  | valueUnexpected (name : String)
  | badValue (parameter : String) (why : BadValue)
  | extraArguments (arguments : List String)
  | programAndCode
  | commandMissing
  | noSuchCommand (name : String)
deriving DecidableEq

def UsageFault.message : UsageFault → String
  | .noSuchOption name => "No such option " ++ Text.quoted name ++ "."
  | .argumentMissing name =>
      "Option " ++ Text.quoted name ++ " requires an argument."
  | .valueUnexpected name =>
      "Option " ++ Text.quoted name ++ " does not take a value."
  | .badValue parameter why =>
      "Invalid value for " ++ parameter ++ ": " ++ why.message
  | .extraArguments arguments =>
      (if arguments.length = 1 then "Got unexpected extra argument ("
        else "Got unexpected extra arguments (") ++
        " ".intercalate arguments ++ ")"
  | .programAndCode => "Give either PROGRAM or --eval, not both."
  | .commandMissing => "Missing command."
  | .noSuchCommand name => "No such command " ++ Text.quoted name ++ "."

end CommandLine
end TapeLang
