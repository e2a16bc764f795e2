import TapeLang.Text.Quoted

/-!
# JSON values

Values that come from outside before their type is known, and reports on their
way out.

**Results.** `Json.pretty` writes a value over several lines, `Json.line` on
one line; both use ASCII only.  `Json.shown` writes a value the way messages
show it.
-/

namespace TapeLang

/-- A JSON value.  A number is `mantissa / 10 ^ places`; whole numbers have no
places. -/
inductive Json where
  | null
  | bool (b : Bool)
  | number (mantissa : Int) (places : Nat)
  | text (s : String)
  | list (items : List Json)
  | object (fields : List (String × Json))
deriving Inhabited

namespace Json

def int (n : Int) : Json :=
  .number n 0

def nat (n : Nat) : Json :=
  .int n

def option (value : Option Json) : Json :=
  value.getD .null

/-- The field of an object under a name; of two with that name, the later. -/
def field? (name : String) : Json → Option Json
  | .object fields =>
      (fields.reverse.find? fun field => field.1 == name).map (·.2)
  | _ => none

/-- The name of a value's type, as messages show it. -/
def typeName : Json → String
  | .null => "NoneType"
  | .bool _ => "bool"
  | .number _ 0 => "int"
  | .number _ _ => "float"
  | .text _ => "str"
  | .list _ => "list"
  | .object _ => "dict"

/-- A decimal number with a given count of places. -/
def decimalText (mantissa : Int) (places : Nat) : String :=
  if places = 0 then
    toString mantissa
  else
    let sign := if mantissa < 0 then "-" else ""
    let digits := Nat.toDigits 10 mantissa.natAbs
    let padded := List.replicate (places + 1 - digits.length) '0' ++ digits
    let whole := padded.take (padded.length - places)
    let fraction := padded.drop (padded.length - places)
    sign ++ String.ofList whole ++ "." ++ String.ofList fraction

section Writing

/-- A UTF-16 unit as an escape. -/
def unitEscape (n : Nat) : List Char :=
  '\\' :: 'u' :: Text.hexDigits 4 n

/-- A character inside a string: ASCII as it is where it can be, short escapes
for the common controls, UTF-16 units for everything else. -/
def escapedChar (c : Char) : List Char :=
  if c = Text.doubleQuote ∨ c = '\\' then
    ['\\', c]
  else if c = '\n' then
    ['\\', 'n']
  else if c = '\r' then
    ['\\', 'r']
  else if c = '\t' then
    ['\\', 't']
  else if c = '\x08' then
    ['\\', 'b']
  else if c = '\x0c' then
    ['\\', 'f']
  else if 0x20 ≤ c.toNat ∧ c.toNat ≤ 0x7e then
    [c]
  else if c.toNat < 0x10000 then
    unitEscape c.toNat
  else
    let offset := c.toNat - 0x10000
    unitEscape (0xd800 + offset / 0x400) ++ unitEscape (0xdc00 + offset % 0x400)

/-- A string between double quotes, in ASCII. -/
def escaped (s : String) : String :=
  String.ofList
    (Text.doubleQuote :: (s.toList.flatMap escapedChar ++ [Text.doubleQuote]))

/-- The start of a line at a depth of nesting. -/
def lineStart (depth : Nat) : String :=
  "\n" ++ String.ofList (List.replicate (2 * depth) ' ')

mutual

/-- A value over several lines, two blanks for every depth of nesting. -/
def prettyAt (depth : Nat) : Json → String
  | .null => "null"
  | .bool b => if b then "true" else "false"
  | .number mantissa places => decimalText mantissa places
  | .text s => escaped s
  | .list [] => "[]"
  | .list (item :: items) =>
      "[" ++ lineStart (depth + 1) ++ prettyAt (depth + 1) item ++
        prettyItems (depth + 1) items ++ lineStart depth ++ "]"
  | .object [] => "\x7b\x7d"
  | .object ((name, value) :: fields) =>
      "\x7b" ++ lineStart (depth + 1) ++ escaped name ++ ": " ++
        prettyAt (depth + 1) value ++ prettyFields (depth + 1) fields ++
        lineStart depth ++ "\x7d"

def prettyItems (depth : Nat) : List Json → String
  | [] => ""
  | item :: items =>
      "," ++ lineStart depth ++ prettyAt depth item ++ prettyItems depth items

def prettyFields (depth : Nat) : List (String × Json) → String
  | [] => ""
  | (name, value) :: fields =>
      "," ++ lineStart depth ++ escaped name ++ ": " ++ prettyAt depth value ++
        prettyFields depth fields

end

def pretty (value : Json) : String :=
  prettyAt 0 value

mutual

/-- A value on one line. -/
def line : Json → String
  | .null => "null"
  | .bool b => if b then "true" else "false"
  | .number mantissa places => decimalText mantissa places
  | .text s => escaped s
  | .list items => "[" ++ ", ".intercalate (lineItems items) ++ "]"
  | .object fields => "\x7b" ++ ", ".intercalate (lineFields fields) ++ "\x7d"

def lineItems : List Json → List String
  | [] => []
  | item :: items => line item :: lineItems items

def lineFields : List (String × Json) → List String
  | [] => []
  | (name, value) :: fields =>
      (escaped name ++ ": " ++ line value) :: lineFields fields

end

mutual

/-- A value the way messages show it. -/
def shown : Json → String
  | .null => "None"
  | .bool b => if b then "True" else "False"
  | .number mantissa places => decimalText mantissa places
  | .text s => Text.quoted s
  | .list items => "[" ++ ", ".intercalate (shownItems items) ++ "]"
  | .object fields => "\x7b" ++ ", ".intercalate (shownFields fields) ++ "\x7d"

def shownItems : List Json → List String
  | [] => []
  | item :: items => shown item :: shownItems items

def shownFields : List (String × Json) → List String
  | [] => []
  | (name, value) :: fields =>
      (Text.quoted name ++ ": " ++ shown value) :: shownFields fields

end

end Writing

end Json
end TapeLang
