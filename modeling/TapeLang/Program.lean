import TapeLang.Loop.JumpTable

/-!
# Programs

A program is a sequence of instructions together with its jump table, ready to
run any number of times.

**Results.** `Program.load` reads a program text, or reports its first bracket
fault.  `place?_eq_some_iff` says which place of a row an index stands for.
-/

namespace TapeLang

/-- The place that an index stands for in a row of `size` places: an index from
zero on counts from the front, a negative one from the end. -/
def place? (size : Nat) (index : Int) : Option Nat :=
  if 0 ≤ index then
    if index < size then some index.toNat else none
  else if 0 ≤ index + size then
    some (index + size).toNat
  else
    none

/-- An index stands for the place with its own number, or with its number counted
from the end. -/
theorem place?_eq_some_iff {size : Nat} {index : Int} {place : Nat} :
    place? size index = some place ↔
      place < size ∧ (index = place ∨ index = (place : Int) - size) := by
  unfold place?
  split
  · next h0 =>
      split
      · next h1 =>
          rw [Option.some.injEq]
          omega
      · next h1 =>
          simp only [reduceCtorEq, false_iff]
          omega
  · next h0 =>
      split
      · next h1 =>
          rw [Option.some.injEq]
          omega
      · next h1 =>
          simp only [reduceCtorEq, false_iff]
          omega

/-- The place of an index lies in the row. -/
theorem lt_of_place? {size : Nat} {index : Int} {place : Nat}
    (h : place? size index = some place) :
    place < size :=
  (place?_eq_some_iff.1 h).1

/-- Instructions with the jumps of their brackets. -/
structure Program where
  code : Array Instruction
  jumps : JumpTable

namespace Program

/-- Reads a program text. -/
def load (source : String) : Except Fault Program := do
  let code := tokenize source
  let jumps ← Loop.resolve code
  return { code := code.toArray, jumps := jumps }

/-- A program text with jumps that are taken as they are. -/
def withJumps (source : String) (jumps : JumpTable) : Program :=
  { code := (tokenize source).toArray, jumps := jumps }

def length (p : Program) : Nat :=
  p.code.size

/-- The number of loops: two jumps make one. -/
def loopCount (p : Program) : Nat :=
  p.jumps.size / 2

def text (p : Program) : String :=
  render p.code.toList

def fetch? (p : Program) (pc : Int) : Option Instruction :=
  (place? p.code.size pc).bind fun i => p.code[i]?

/-- Two programs are the same if their instructions and their jumps are. -/
def same (p q : Program) : Bool :=
  p.code == q.code && p.jumps.toList == q.jumps.toList

end Program
end TapeLang
