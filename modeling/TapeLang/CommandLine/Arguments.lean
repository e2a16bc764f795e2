import TapeLang.CommandLine.Usage

/-!
# Options and arguments

**Input.** The words of a command line, and the options that are known.
**Algorithm.** Words are taken from left to right.  A word that begins with a
hyphen, and is not a lone hyphen, holds options; `--` ends them.  A long option
may carry its value after an equals sign; short options may share a word, of
which the last may carry its value in the rest of that word.  An option that
still needs a value takes the next word, whatever it looks like.
**Results.** `split` gives the options in the order in which they were typed,
and the remaining words.

All that is here stands for a general reader of options, of which it is the part
that the commands use: `split` knows no command, and what the options mean is for
`Invocation.ofArguments` to say.  An option that prints a text of help is left
out, so it is refused like any other option that is not known.
-/

namespace TapeLang
namespace CommandLine

/-- The options of all commands. -/
inductive Flag where
  | version
  | eval
  | json
  | input
  | eof
  | tapeSize
  | maxSteps
  | verbose
deriving DecidableEq

/-- How an option is spelled. -/
structure Spelling where
  flag : Flag
  long : String
  short? : Option Char
  takesValue : Bool

/-- An option as it was typed, with its value if it takes one. -/
structure Typed where
  flag : Flag
  value? : Option String
deriving DecidableEq

/-- An option that still needs a value, and the name under which it was typed. -/
structure Waiting where
  flag : Flag
  name : String

/-- The options in one word, and the last of them if it still needs a value. -/
structure WordOptions where
  typed : List Typed
  waiting? : Option Waiting

namespace WordOptions

def single (flag : Flag) (value? : Option String) : WordOptions :=
  { typed := [⟨flag, value?⟩], waiting? := none }

def needing (flag : Flag) (name : String) : WordOptions :=
  { typed := [], waiting? := some ⟨flag, name⟩ }

def cons (option : Typed) (w : WordOptions) : WordOptions :=
  { w with typed := option :: w.typed }

end WordOptions

/-- The short options that share a word. -/
def readCluster (known : List Spelling) : List Char → Except UsageFault WordOptions
  | [] => .ok { typed := [], waiting? := none }
  | c :: rest =>
      let name := String.ofList ['-', c]
      match known.find? fun spelling => spelling.short? == some c with
      | none => .error (.noSuchOption name)
      | some spelling =>
          if spelling.takesValue then
            if rest.isEmpty then
              .ok (.needing spelling.flag name)
            else
              .ok (.single spelling.flag (some (String.ofList rest)))
          else
            (readCluster known rest).map (.cons ⟨spelling.flag, none⟩)

/-- A long option, whose value may be attached. -/
def readLong (spelling : Spelling) (attached? : Option String) :
    Except UsageFault WordOptions :=
  match spelling.takesValue, attached? with
  | true, some value => .ok (.single spelling.flag (some value))
  | true, none => .ok (.needing spelling.flag spelling.long)
  | false, some _ => .error (.valueUnexpected spelling.long)
  | false, none => .ok (.single spelling.flag none)

/-- The part of a word before its first equals sign, and the part after it. -/
def splitValue (word : List Char) : List Char × Option (List Char) :=
  match word.dropWhile (· ≠ '=') with
  | _ :: value => (word.takeWhile (· ≠ '='), some value)
  | [] => (word, none)

/-- The options in a word. -/
def readWord (known : List Spelling) (word : List Char) :
    Except UsageFault WordOptions :=
  let (name, value?) := splitValue word
  let name := String.ofList name
  match known.find? fun spelling => spelling.long == name with
  | some spelling => readLong spelling (value?.map String.ofList)
  | none =>
      match word with
      | '-' :: '-' :: _ => .error (.noSuchOption name)
      | _ => readCluster known (word.drop 1)

/-- Whether a word holds options. -/
def holdsOptions : List Char → Bool
  | '-' :: _ :: _ => true
  | _ => false

/-- The words of a command line, told apart. -/
structure Arguments where
  /-- Options in the order in which they were typed. -/
  options : List Typed
  words : List String
deriving DecidableEq

namespace Arguments

def withOptions (options : List Typed) (a : Arguments) : Arguments :=
  { a with options := options ++ a.options }

def withWord (word : String) (a : Arguments) : Arguments :=
  { a with words := word :: a.words }

def has (a : Arguments) (flag : Flag) : Bool :=
  a.options.any fun option => option.flag == flag

/-- The options that were typed, each with its last value, in the order in which
they were first typed. -/
def final (a : Arguments) : List Typed :=
  (a.options.map (·.flag)).eraseDups.filterMap fun flag =>
    a.options.reverse.find? fun option => option.flag == flag

end Arguments

/-- Tells the options from the other words.  If options may not follow a word
that is none, the first such word ends them. -/
def split (known : List Spelling) (mixed : Bool) :
    List String → Except UsageFault Arguments
  | [] => .ok ⟨[], []⟩
  | word :: rest =>
      if word = "--" then
        .ok ⟨[], rest⟩
      else if holdsOptions word.toList then
        match readWord known word.toList with
        | .error fault => .error fault
        | .ok ⟨typed, none⟩ =>
            (split known mixed rest).map (.withOptions typed)
        | .ok ⟨typed, some waiting⟩ =>
            match rest with
            | [] => .error (.argumentMissing waiting.name)
            | value :: rest =>
                (split known mixed rest).map
                  (.withOptions (typed ++ [⟨waiting.flag, some value⟩]))
      else if mixed then
        (split known mixed rest).map (.withWord word)
      else
        .ok ⟨[], word :: rest⟩

end CommandLine
end TapeLang
