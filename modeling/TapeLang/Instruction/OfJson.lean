import TapeLang.Instruction
import TapeLang.Json

/-!
# Instructions given as values

An instruction can be given as a value of unknown type; only a text of exactly
one symbol is one.
-/

namespace TapeLang

/-- A value that is no instruction. -/
structure NotInstruction where
  value : Json

def NotInstruction.message (refused : NotInstruction) : String :=
  refused.value.shown ++ " is not a valid Instruction"

/-- The instruction of a text that is exactly one symbol. -/
def Instruction.ofText? (s : String) : Option Instruction :=
  match s.toList with
  | [c] => ofSymbol? c
  | _ => none

/-- The instruction that a value gives. -/
def Instruction.ofJson (value : Json) : Except NotInstruction Instruction :=
  match value with
  | .text s =>
      match ofText? s with
      | some instruction => .ok instruction
      | none => .error ⟨value⟩
  | _ => .error ⟨value⟩

end TapeLang
