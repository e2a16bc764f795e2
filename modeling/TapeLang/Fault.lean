import TapeLang.Setting

/-!
# Faults of a program

The errors that the language itself defines.  Loop faults are found before a
program runs and name the index of a bracket; execution faults stop a run and
name the instruction that failed.

**Results.** `Fault.kind` and `Fault.message` give the name and the wording of
every fault, and `Fault.toJson` the record that reports list.
-/

namespace TapeLang

/-- An error of the language. -/
inductive Fault where
  /-- A fault of no particular sort. -/
  | general (text : String)
  /-- A fault of the loop structure at an instruction. -/
  | loopStructure (text : String) (index : Int)
  /-- A loop that is never closed. -/
  | unmatchedOpen (index : Int)
  /-- A closing bracket with no open loop. -/
  | unmatchedClose (index : Int)
  /-- A fault of a running program. -/
  | execution (text : String) (pc : Int)
  /-- The data pointer would leave the tape. -/
  | pointerOutOfBounds (pointer : Int) (tapeSize : Setting) (pc : Int)
  /-- Input was read after its end. -/
  | inputExhausted (pc : Int)
  /-- The step budget is spent. -/
  | stepLimitExceeded (maxSteps : Setting) (pc : Int)
deriving DecidableEq

namespace Fault

def kind : Fault → String
  | .general _ => "BFError"
  | .loopStructure _ _ => "LoopStructureError"
  | .unmatchedOpen _ => "UnmatchedLoopOpen"
  | .unmatchedClose _ => "UnmatchedLoopClose"
  | .execution _ _ => "ExecutionError"
  | .pointerOutOfBounds _ _ _ => "PointerOutOfBounds"
  | .inputExhausted _ => "InputExhausted"
  | .stepLimitExceeded _ _ => "StepLimitExceeded"

/-- A text about the loop structure, with the place it is about. -/
def atInstruction (text : String) (index : Int) : String :=
  text ++ " at instruction " ++ toString index

def message : Fault → String
  | .general text => text
  | .loopStructure text index => atInstruction text index
  | .unmatchedOpen index => atInstruction "Unmatched '['" index
  | .unmatchedClose index => atInstruction "Unmatched ']'" index
  | .execution text _ => text
  | .pointerOutOfBounds pointer tapeSize _ =>
      "Data pointer moved to " ++ toString pointer ++ ", outside tape [0, " ++
        tapeSize.text ++ ")"
  | .inputExhausted pc => atInstruction "Input exhausted" pc
  | .stepLimitExceeded maxSteps _ =>
      "Program exceeded step limit of " ++ maxSteps.text

/-- The bracket that a loop fault is about. -/
def index? : Fault → Option Int
  | .loopStructure _ index => some index
  | .unmatchedOpen index => some index
  | .unmatchedClose index => some index
  | _ => none

/-- The instruction at which an execution fault arose. -/
def pc? : Fault → Option Int
  | .execution _ pc => some pc
  | .pointerOutOfBounds _ _ pc => some pc
  | .inputExhausted pc => some pc
  | .stepLimitExceeded _ pc => some pc
  | _ => none

/-- The record of a fault: its kind and message, and the place it is about. -/
def toJson (fault : Fault) : Json :=
  .object
    ([("kind", .text fault.kind), ("message", .text fault.message)] ++
      (fault.index?.map fun index => ("index", Json.int index)).toList ++
      (fault.pc?.map fun pc => ("pc", Json.int pc)).toList)

/-- Kind and message on one line. -/
def summary (fault : Fault) : String :=
  fault.kind ++ ": " ++ fault.message

end Fault
end TapeLang
