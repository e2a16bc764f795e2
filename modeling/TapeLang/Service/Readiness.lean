import TapeLang.Journal
import TapeLang.Release

/-!
# Readiness

**Input.** A known program with its input and the output that is expected.
**Results.** `selfCheck` tells which stages of the interpreter give the expected
result for it, and writes a fault of the program into the journal.
`startup` and `shutdown` are the entries of the service's life.
-/

namespace TapeLang
namespace Service

/-- A program whose result is known. -/
structure Probe where
  program : String := ",[->+<]>+."
  input : List UInt8 := [0x41]
  output : List UInt8 := [0x42]
deriving DecidableEq

/-- The jumps that the probe's loop must have. -/
def expectedJumps : List (Int × Int) :=
  [(1, 6), (6, 1)]

/-- Which stages give the expected result. -/
structure Checks where
  lexer : Bool := false
  resolver : Bool := false
  runtime : Bool := false
deriving DecidableEq

namespace Checks

/-- The stages by name, with their results. -/
def toList (c : Checks) : List (String × Bool) :=
  [("lexer", c.lexer), ("resolver", c.resolver), ("runtime", c.runtime)]

/-- Whether every stage gives the expected result. -/
def ready (c : Checks) : Bool :=
  c.toList.all (·.2)

/-- The names of the stages that do not. -/
def failing (c : Checks) : List String :=
  (c.toList.filter fun check => !check.2).map (·.1)

def toJson (c : Checks) : Json :=
  .object (c.toList.map fun (name, ok) => (name, .bool ok))

end Checks

/-- The entry about a probe that failed. -/
def probeFailed (fault : Fault) : Entry :=
  ⟨.warning, "api.routes.health", "Readiness program failed: " ++ fault.summary⟩

/-- Runs each stage on the probe. -/
def selfCheck (patience : Nat) (probe : Probe) : Checks × List Entry :=
  let code := tokenize probe.program
  let lexed : Checks := { lexer := code.length == probe.program.length }
  match Loop.resolve code with
  | .error fault => (lexed, [probeFailed fault])
  | .ok jumps =>
      let resolved := { lexed with resolver := jumps.toList == expectedJumps }
      match runText patience {} probe.program probe.input with
      | some (.ok output) =>
          ({ resolved with runtime := output == probe.output }, [])
      | some (.error ⟨.fault fault, _⟩) => (resolved, [probeFailed fault])
      | _ => (resolved, [])

def apiName : String :=
  programName ++ " API"

/-- The journal of the service's start. -/
def startup (patience : Nat) (probe : Probe) : List Entry :=
  let (checks, entries) := selfCheck patience probe
  entries ++
    if checks.ready then
      [⟨.info, "api.main", apiName ++ " " ++ versionNumber ++ " ready"⟩]
    else
      [⟨.error, "api.main",
        apiName ++ " started with failing pipeline stages: " ++
          ", ".intercalate checks.failing⟩]

/-- The journal of the service's end. -/
def shutdown : List Entry :=
  [⟨.info, "api.main", apiName ++ " shutting down"⟩]

end Service
end TapeLang
