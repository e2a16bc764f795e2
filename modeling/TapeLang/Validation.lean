import TapeLang.Program

/-!
# Checking programs without running them

**Input.** A program text.
**Results.** `validate` counts its instructions and loops, and lists every
bracket fault.
-/

namespace TapeLang

/-- What is found out about a program without running it. -/
structure Validation where
  instructionCount : Nat
  loopCount : Nat
  faults : List Fault
deriving DecidableEq

def validate (source : String) : Validation :=
  let code := tokenize source
  { instructionCount := code.length
    loopCount := Loop.count code
    faults := Loop.faults code }

namespace Validation

/-- Whether every bracket has a partner. -/
def valid (v : Validation) : Bool :=
  v.faults.isEmpty

def toJson (v : Validation) : Json :=
  .object
    [ ("valid", .bool v.valid),
      ("instruction_count", .nat v.instructionCount),
      ("loop_count", .nat v.loopCount),
      ("errors", .list (v.faults.map Fault.toJson)) ]

end Validation
end TapeLang
