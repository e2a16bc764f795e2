import TapeLang.Config
import TapeLang.Text.Numeral
import TapeLang.Text.Utf8

/-!
# Requests and what may be wrong with them

**Input.** The JSON body of a request.
**Results.** `ExecuteRequest.ofBody` and `ValidateRequest.ofBody` read a body,
or list a finding for every field that does not fit, in the order of the
fields.  Fields that are not known are ignored.

The fields, their defaults and bounds and the rule that input has one byte per
character are the service's own.  The rest stands for a general checker of
bodies, of which it is the part that these fields use: which values count as a
text, a whole number or a policy, and the kinds and wordings of `Problem`.  A
finding shows its kind, its place and its message; that it shows the value as
well is left out.
-/

namespace TapeLang
namespace Service

/-- What can be wrong with a body or a field of it. -/
inductive Problem where
  | missing
  | notObject
  | notText
  | wideCharacter (c : Char) (position : Nat)
  | unknownPolicy
  | notInteger
  | unreadable
  | tooLong
  | fractional
  | belowMinimum (least : Int)
  | aboveMaximum (most : Int)
deriving DecidableEq

namespace Problem

def kind : Problem → String
  | .missing => "missing"
  | .notObject => "model_attributes_type"
  | .notText => "string_type"
  | .wideCharacter _ _ => "value_error"
  | .unknownPolicy => "enum"
  | .notInteger => "int_type"
  | .unreadable => "int_parsing"
  | .tooLong => "int_parsing_size"
  | .fractional => "int_from_float"
  | .belowMinimum _ => "greater_than_equal"
  | .aboveMaximum _ => "less_than_equal"

def message : Problem → String
  | .missing => "Field required"
  | .notObject =>
      "Input should be a valid dictionary or object to extract fields from"
  | .notText => "Input should be a valid string"
  | .wideCharacter c position =>
      "Value error, input character " ++ Text.quoted (String.ofList [c]) ++
        " at position " ++ toString position ++ " is not a single byte"
  | .unknownPolicy => "Input should be 'error', 'zero' or 'unchanged'"
  | .notInteger => "Input should be a valid integer"
  | .unreadable =>
      "Input should be a valid integer, unable to parse string as an integer"
  | .tooLong =>
      "Unable to parse input string as an integer, exceeded maximum size"
  | .fractional =>
      "Input should be a valid integer, got a number with a fractional part"
  | .belowMinimum least =>
      "Input should be greater than or equal to " ++ toString least
  | .aboveMaximum most =>
      "Input should be less than or equal to " ++ toString most

end Problem

/-- A problem and the field it is about; `none` for the body as a whole. -/
structure Finding where
  field? : Option String
  problem : Problem
deriving DecidableEq

def Finding.toJson (f : Finding) : Json :=
  .object
    [ ("type", .text f.problem.kind),
      ("loc", .list (("body" :: f.field?.toList).map .text)),
      ("msg", .text f.problem.message) ]

section Values

def readText : Json → Except Problem String
  | .text s => .ok s
  | _ => .error .notText

/-- A text with one byte per character. -/
def readBytes (value : Json) : Except Problem (List UInt8) := do
  let s ← readText value
  match Text.latin1Bytes s with
  | .ok bytes => .ok bytes
  | .error (c, position) => .error (.wideCharacter c position)

def readPolicy (value : Json) : Except Problem EofPolicy :=
  match EofPolicy.ofJson? value with
  | some policy => .ok policy
  | none => .error .unknownPolicy

/-- A whole number: given as such, as a truth value, or as a text.  Numbers are
exact decimals here: one that lies between two whole numbers is refused, however
near it comes to one of them. -/
def readInteger : Json → Except Problem Int
  | .number mantissa places =>
      let unit : Int := Nat.pow 10 places
      if mantissa % unit = 0 then .ok (mantissa / unit) else .error .fractional
  | .bool b => .ok (if b then 1 else 0)
  | .text s =>
      if Text.digitLimit < (Text.trimBy Text.isWhiteSpace s.toList).length then
        .error .tooLong
      else
        match Text.readPlainInteger? s with
        | some n => .ok n
        | none => .error .unreadable
  | _ => .error .notInteger

/-- A whole number between one and a bound. -/
def readBounded (most : Int) (value : Json) : Except Problem Int := do
  let n ← readInteger value
  if n < 1 then
    .error (.belowMinimum 1)
  else if most < n then
    .error (.aboveMaximum most)
  else
    .ok n

end Values

section Fields

/-- A field of a body; a default stands for one that is left out. -/
def optionalField {α : Type} (body : Json) (name : String) (fallback : α)
    (read : Json → Except Problem α) : Except Finding α :=
  match body.field? name with
  | none => .ok fallback
  | some value => (read value).mapError (⟨some name, ·⟩)

/-- A field that must be there. -/
def requiredField {α : Type} (body : Json) (name : String)
    (read : Json → Except Problem α) : Except Finding α :=
  match body.field? name with
  | none => .error ⟨some name, .missing⟩
  | some value => (read value).mapError (⟨some name, ·⟩)

/-- The finding of a field that does not fit. -/
def findings {α : Type} : Except Finding α → List Finding
  | .ok _ => []
  | .error f => [f]

/-- A body has to be an object. -/
def readObject : Option Json → Except (List Finding) Json
  | none => .error [⟨none, .missing⟩]
  | some (.object fields) => .ok (.object fields)
  | some _ => .error [⟨none, .notObject⟩]

end Fields

/-- The most steps and the most cells that a request may ask for. -/
def requestLimit : Int :=
  1000000

/-- A request to run a program. -/
structure ExecuteRequest where
  source : String
  input : List UInt8
  eof : EofPolicy
  tapeSize : Int
  maxSteps : Int
deriving DecidableEq

def ExecuteRequest.ofBody (body? : Option Json) :
    Except (List Finding) ExecuteRequest := do
  let body ← readObject body?
  let source := requiredField body "source" readText
  let input := optionalField body "input" [] readBytes
  let eof := optionalField body "eof" .error readPolicy
  let tapeSize :=
    optionalField body "tape_size" defaultTapeSize (readBounded requestLimit)
  let maxSteps :=
    optionalField body "max_steps" requestLimit (readBounded requestLimit)
  match source, input, eof, tapeSize, maxSteps with
  | .ok source, .ok input, .ok eof, .ok tapeSize, .ok maxSteps =>
      .ok
        { source := source
          input := input
          eof := eof
          tapeSize := tapeSize
          maxSteps := maxSteps }
  | _, _, _, _, _ =>
      .error
        (findings source ++ findings input ++ findings eof ++
          findings tapeSize ++ findings maxSteps)

def ExecuteRequest.config (r : ExecuteRequest) : Config :=
  { tapeSize := .number r.tapeSize
    eof := r.eof
    maxSteps := some (.number r.maxSteps) }

structure ValidateRequest where
  source : String
deriving DecidableEq

def ValidateRequest.ofBody (body? : Option Json) :
    Except (List Finding) ValidateRequest := do
  let body ← readObject body?
  match requiredField body "source" readText with
  | .ok source => .ok ⟨source⟩
  | .error f => .error [f]

end Service
end TapeLang
