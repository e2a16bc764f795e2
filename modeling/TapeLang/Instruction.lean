/-!
# Instructions of the tape language

The language has eight one-character instructions; every other character of a
program text is a comment.

**Input.** Program text, as a `String`.
**Results.** `tokenize` keeps the instructions of a text in order, and `render`
writes a sequence of instructions as canonical text.  `tokenize_render` says
that canonical text reads back, `toList_render_tokenize` that it is the text
with its comments left out, and `tokenize_append` that reading goes character
by character.
-/

namespace TapeLang

/-- One of the eight operations of the tape language. -/
inductive Instruction where
  | moveRight
  | moveLeft
  | increment
  | decrement
  | output
  | input
  | loopOpen
  | loopClose
deriving DecidableEq

namespace Instruction

/-- The character that stands for an instruction in a program text. -/
def symbol : Instruction → Char
  | .moveRight => '>'
  | .moveLeft => '<'
  | .increment => '+'
  | .decrement => '-'
  | .output => '.'
  | .input => ','
  | .loopOpen => '['
  | .loopClose => ']'

/-- The instruction that a character stands for; `none` for a comment. -/
def ofSymbol? : Char → Option Instruction
  | '>' => some .moveRight
  | '<' => some .moveLeft
  | '+' => some .increment
  | '-' => some .decrement
  | '.' => some .output
  | ',' => some .input
  | '[' => some .loopOpen
  | ']' => some .loopClose
  | _ => none

def name : Instruction → String
  | .moveRight => "MOVE_RIGHT"
  | .moveLeft => "MOVE_LEFT"
  | .increment => "INCREMENT"
  | .decrement => "DECREMENT"
  | .output => "OUTPUT"
  | .input => "INPUT"
  | .loopOpen => "LOOP_OPEN"
  | .loopClose => "LOOP_CLOSE"

@[simp] theorem ofSymbol?_symbol (i : Instruction) :
    ofSymbol? i.symbol = some i := by
  cases i <;> rfl

/-- Only the symbol of an instruction stands for it. -/
theorem symbol_eq_of_ofSymbol? {c : Char} {i : Instruction}
    (h : ofSymbol? c = some i) :
    i.symbol = c := by
  unfold ofSymbol? at h
  split at h <;> cases h <;> rfl

/-- Whether a character is one of the eight symbols. -/
def isSymbol (c : Char) : Bool :=
  (ofSymbol? c).isSome

end Instruction

/-- The instructions of a program text, in order; comments are dropped. -/
def tokenize (source : String) : List Instruction :=
  source.toList.filterMap Instruction.ofSymbol?

/-- The canonical text of a sequence of instructions. -/
def render (code : List Instruction) : String :=
  String.ofList (code.map Instruction.symbol)

theorem tokenize_render (code : List Instruction) :
    tokenize (render code) = code := by
  have h : Instruction.ofSymbol? ∘ Instruction.symbol = some :=
    funext Instruction.ofSymbol?_symbol
  rw [tokenize, render, String.toList_ofList, List.filterMap_map, h,
    List.filterMap_some]

theorem tokenize_append (s t : String) :
    tokenize (s ++ t) = tokenize s ++ tokenize t := by
  simp [tokenize]

/-- Canonical text is the program text without its comments. -/
theorem toList_render_tokenize (source : String) :
    (render (tokenize source)).toList =
      source.toList.filter Instruction.isSymbol := by
  simp only [render, tokenize, String.toList_ofList]
  induction source.toList with
  | nil => rfl
  | cons c cs ih =>
      cases h : Instruction.ofSymbol? c with
      | none => simp [Instruction.isSymbol, h, ih]
      | some i =>
          simp [Instruction.isSymbol, h, ih,
            Instruction.symbol_eq_of_ofSymbol? h]

end TapeLang
