import TapeLang.Json

/-!
# Numeric settings

A size or a limit is given as a whole number or as a truth value, which counts
as one or zero.  Reports and messages echo it in the form in which it was
given.
-/

namespace TapeLang

/-- A size or a limit as it was given. -/
inductive Setting where
  | number (n : Int)
  | truth (b : Bool)
deriving DecidableEq

namespace Setting

/-- The number that a setting counts as. -/
def value : Setting → Int
  | .number n => n
  | .truth b => if b then 1 else 0

/-- A setting as messages show it. -/
def text : Setting → String
  | .number n => toString n
  | .truth b => if b then "True" else "False"

/-- A setting as reports echo it. -/
def toJson : Setting → Json
  | .number n => .int n
  | .truth b => .bool b

/-- The setting that a value gives, if it is of a numeric type. -/
def ofJson? : Json → Option Setting
  | .number n 0 => some (.number n)
  | .bool b => some (.truth b)
  | _ => none

@[simp] theorem value_number (n : Int) : (Setting.number n).value = n :=
  rfl

end Setting
end TapeLang
