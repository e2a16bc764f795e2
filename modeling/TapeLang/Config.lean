import TapeLang.Setting

/-!
# Configuration of a run

**Input.** A tape size, a policy for the end of input and an optional step
budget, each of them optional and of unknown type.  Sizes and budgets are
whole numbers or truth values.  Numbers with a fraction are left out: they are
refused like the values of other types, in the same words, and nothing is
claimed of them.
**Results.** `Config.ofFields` checks the policy first, then the tape size,
then the budget, and reports the first of them that does not fit.
-/

namespace TapeLang

/-- What reading does once the input has ended. -/
inductive EofPolicy where
  | error
  | zero
  | unchanged
deriving DecidableEq

namespace EofPolicy

def name : EofPolicy → String
  | .error => "error"
  | .zero => "zero"
  | .unchanged => "unchanged"

/-- All policies, in the order in which they are listed. -/
def all : List EofPolicy :=
  [.error, .zero, .unchanged]

def ofName? (s : String) : Option EofPolicy :=
  all.find? fun policy => policy.name == s

/-- The policy that a value names. -/
def ofJson? : Json → Option EofPolicy
  | .text s => ofName? s
  | _ => none

end EofPolicy

/-- The number of cells of a tape whose size is not given. -/
def defaultTapeSize : Int :=
  30000

/-- How a program is run. -/
structure Config where
  tapeSize : Setting := .number defaultTapeSize
  /-- What reading does once the input has ended. -/
  eof : EofPolicy := .error
  /-- Most instructions that may be carried out; `none` for no limit. -/
  maxSteps : Option Setting := none
deriving DecidableEq

/-- Why a configuration is refused. -/
inductive ConfigFault where
  | unknownPolicy (value : Json)
  /-- The value is no setting, and cannot be compared with one. -/
  | notComparable (typeName : String)
  | tapeSizeTooSmall (got : Setting)
  | maxStepsTooSmall (got : Setting)

namespace ConfigFault

def message : ConfigFault → String
  | .unknownPolicy value => value.shown ++ " is not a valid EofPolicy"
  | .notComparable typeName =>
      "'<' not supported between instances of '" ++ typeName ++ "' and 'int'"
  | .tapeSizeTooSmall got => "tape_size must be at least 1, got " ++ got.text
  | .maxStepsTooSmall got => "max_steps must be at least 1, got " ++ got.text

end ConfigFault

namespace Config

/-- The policy that a value names, or the refusal of it. -/
def policyOf (value : Json) : Except ConfigFault EofPolicy :=
  match EofPolicy.ofJson? value with
  | some policy => .ok policy
  | none => .error (.unknownPolicy value)

/-- A setting that has to be at least one.  A number with a fraction is none, and
is refused with the others that are not. -/
def positive (tooSmall : Setting → ConfigFault) (value : Json) :
    Except ConfigFault Setting :=
  match Setting.ofJson? value with
  | none => .error (.notComparable value.typeName)
  | some setting =>
      if setting.value < 1 then .error (tooSmall setting) else .ok setting

/-- A step budget; a null value stands for no budget. -/
def budgetOf : Json → Except ConfigFault (Option Setting)
  | .null => .ok none
  | value => (positive .maxStepsTooSmall value).map some

/-- The configuration that the given fields make. -/
def ofFields (tapeSize eof maxSteps : Option Json) : Except ConfigFault Config := do
  let policy ← policyOf (eof.getD (.text EofPolicy.error.name))
  let size ← positive .tapeSizeTooSmall (tapeSize.getD (.int defaultTapeSize))
  let budget ← budgetOf (Json.option maxSteps)
  return { tapeSize := size, eof := policy, maxSteps := budget }

/-- Changes a configuration that is in use, without checking the ranges.  The
policy comes last: if a value names none, what came before it stays changed. -/
def assign (config : Config) (tapeSize : Option Setting)
    (maxSteps : Option (Option Setting)) (eof : Option Json) :
    Config × Option ConfigFault :=
  let config :=
    { config with
      tapeSize := tapeSize.getD config.tapeSize
      maxSteps := maxSteps.getD config.maxSteps }
  match eof.map policyOf with
  | none => (config, none)
  | some (.ok policy) => ({ config with eof := policy }, none)
  | some (.error fault) => (config, some fault)

end Config
end TapeLang
