import Std.Data.TreeMap
import TapeLang.Fault
import TapeLang.Loop.Scan

/-!
# Jump tables

**Input.** A sequence of instructions.
**Results.** `resolve` gives the table that leads from every bracket to its
partner, or the fault of the first bracket that has none: the first stray
closing bracket, else the earliest loop that is never closed.  `faults` lists
all of them, the stray closing brackets first.
-/

namespace TapeLang

/-- Where each bracket jumps to.  A table that does not come from `resolve` may
hold any pairs of indices. -/
structure JumpTable where
  entries : Std.TreeMap Int Int

namespace JumpTable

def empty : JumpTable :=
  ⟨∅⟩

/-- Adds one direction of a jump; an earlier entry is replaced. -/
def insert (table : JumpTable) (source target : Int) : JumpTable :=
  ⟨table.entries.insert source target⟩

def target? (table : JumpTable) (source : Int) : Option Int :=
  table.entries[source]?

/-- The jumps of a table in ascending order of their source. -/
def toList (table : JumpTable) : List (Int × Int) :=
  table.entries.toList

def size (table : JumpTable) : Nat :=
  table.entries.size

/-- The table of given jumps; of two with one source, the later counts. -/
def ofList (jumps : List (Int × Int)) : JumpTable :=
  jumps.foldl (fun table (source, target) => table.insert source target) empty

/-- Adds both directions of a matched pair of brackets. -/
def link (table : JumpTable) (pair : Nat × Nat) : JumpTable :=
  (table.insert pair.1 pair.2).insert pair.2 pair.1

/-- The table that leads every bracket of the given pairs to its partner. -/
def ofPairs (pairs : List (Nat × Nat)) : JumpTable :=
  pairs.foldl link empty

@[simp] theorem target?_empty (i : Int) : empty.target? i = none := by
  simp [empty, target?]

theorem target?_insert (table : JumpTable) (source target i : Int) :
    (table.insert source target).target? i =
      if i = source then some target else table.target? i := by
  simp [insert, target?, Std.TreeMap.getElem?_insert, @eq_comm _ source i]

end JumpTable

namespace Loop

namespace Scan

/-- Every bracket fault of a pass: the stray closing brackets in order, then the
loops that are never closed in order. -/
def faults (s : Scan) : List Fault :=
  s.strayCloses.map (fun i => .unmatchedClose i) ++
    s.unclosedOpens.map (fun i => .unmatchedOpen i)

/-- The jump table of a pass; the first stray closing bracket is a fault, else
the earliest loop that is never closed. -/
def table (s : Scan) : Except Fault JumpTable :=
  match s.strayCloses, s.unclosedOpens with
  | stray :: _, _ => .error (.unmatchedClose stray)
  | [], opening :: _ => .error (.unmatchedOpen opening)
  | [], [] => .ok (.ofPairs s.pairs)

end Scan

def faults (code : List Instruction) : List Fault :=
  (scan code).faults

/-- The jump table of a sequence of instructions, or its first bracket fault. -/
def resolve (code : List Instruction) : Except Fault JumpTable :=
  (scan code).table

/-- How many loops a sequence opens. -/
def count (code : List Instruction) : Nat :=
  code.count .loopOpen

end Loop
end TapeLang
