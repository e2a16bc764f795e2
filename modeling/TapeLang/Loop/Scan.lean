import TapeLang.Instruction

/-!
# One pass over the loop brackets

**Input.** A sequence of instructions.
**Algorithm.** The pass keeps the indices of the loops still open, innermost
first.  A closing bracket takes the innermost of them as its partner, or is
stray if there is none.
**Results.** `scan` gives the matched pairs, the stray closing brackets and the
opening brackets that were never closed.
-/

namespace TapeLang
namespace Loop

/-- What a pass over the brackets has found so far. -/
structure Scan where
  /-- How many instructions have been read. -/
  position : Nat
  /-- Indices of the loops still open, innermost first. -/
  pending : List Nat
  /-- Matched brackets as pairs of opening and closing index, latest first. -/
  pairs : List (Nat × Nat)
  /-- Indices of closing brackets without a partner, latest first. -/
  strays : List Nat
deriving DecidableEq

namespace Scan

def start : Scan :=
  { position := 0, pending := [], pairs := [], strays := [] }

def visit (s : Scan) : Instruction → Scan
  | .loopOpen =>
      { s with position := s.position + 1, pending := s.position :: s.pending }
  | .loopClose =>
      match s.pending with
      | [] =>
          { s with position := s.position + 1, strays := s.position :: s.strays }
      | opening :: outer =>
          { s with
            position := s.position + 1
            pending := outer
            pairs := (opening, s.position) :: s.pairs }
  | _ => { s with position := s.position + 1 }

/-- Stray closing brackets in program order. -/
def strayCloses (s : Scan) : List Nat :=
  s.strays.reverse

/-- Opening brackets that were never closed, in program order. -/
def unclosedOpens (s : Scan) : List Nat :=
  s.pending.reverse

end Scan

/-- The pass over a whole sequence of instructions. -/
def scan (code : List Instruction) : Scan :=
  code.foldl Scan.visit Scan.start

@[simp] theorem scan_nil : scan [] = Scan.start :=
  rfl

/-- The pass can be resumed: after a first part it goes on with the second. -/
theorem scan_append (first second : List Instruction) :
    scan (first ++ second) = second.foldl Scan.visit (scan first) := by
  simp [scan]

end Loop
end TapeLang
