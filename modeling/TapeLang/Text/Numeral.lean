/-!
# Reading whole numbers

**Input.** A text, with blanks around it, an optional sign, and decimal digits
that single underscores may separate.
**Results.** `readInteger?` reads such a text with the decimal digits of every
script, and `readPlainInteger?` with ASCII digits only but with an optional
fractional part of zeros.
-/

namespace TapeLang
namespace Text

/-- The code points of the digit zero of every script; the nine digits after
zero follow it directly. -/
def zeroDigits : List Nat := [
  0x30, 0x660, 0x6f0, 0x7c0, 0x966, 0x9e6, 0xa66, 0xae6,
  0xb66, 0xbe6, 0xc66, 0xce6, 0xd66, 0xde6, 0xe50, 0xed0,
  0xf20, 0x1040, 0x1090, 0x17e0, 0x1810, 0x1946, 0x19d0, 0x1a80,
  0x1a90, 0x1b50, 0x1bb0, 0x1c40, 0x1c50, 0xa620, 0xa8d0, 0xa900,
  0xa9d0, 0xa9f0, 0xaa50, 0xabf0, 0xff10, 0x104a0, 0x10d30, 0x11066,
  0x110f0, 0x11136, 0x111d0, 0x112f0, 0x11450, 0x114d0, 0x11650, 0x116c0,
  0x11730, 0x118e0, 0x11950, 0x11c50, 0x11d50, 0x11da0, 0x16a60, 0x16ac0,
  0x16b50, 0x1d7ce, 0x1d7d8, 0x1d7e2, 0x1d7ec, 0x1d7f6, 0x1e140, 0x1e2f0,
  0x1e950, 0x1fbf0]

/-- The value of a decimal digit of any script. -/
def digitValue? (c : Char) : Option Nat :=
  (zeroDigits.find? fun base => base ≤ c.toNat && c.toNat < base + 10).map
    fun base => c.toNat - base

def asciiDigitValue? (c : Char) : Option Nat :=
  if '0' ≤ c ∧ c ≤ '9' then
    some (c.toNat - '0'.toNat)
  else
    none

/-- Characters with the white-space property. -/
def isWhiteSpace (c : Char) : Bool :=
  let n := c.toNat
  (0x9 ≤ n && n ≤ 0xd) || n == 0x20 || n == 0x85 || n == 0xa0 || n == 0x1680 ||
    (0x2000 ≤ n && n ≤ 0x200a) || n == 0x2028 || n == 0x2029 || n == 0x202f ||
    n == 0x205f || n == 0x3000

/-- Characters that may stand around a number: white space and the four
information separators U+001C to U+001F. -/
def isBlank (c : Char) : Bool :=
  isWhiteSpace c || (0x1c ≤ c.toNat && c.toNat ≤ 0x1f)

/-- A text without the leading and trailing characters of a class. -/
def trimBy (drop : Char → Bool) (cs : List Char) : List Char :=
  ((cs.dropWhile drop).reverse.dropWhile drop).reverse

/-- A non-empty row of digits, in which a single underscore may stand between
two of them. -/
def readDigits? (value? : Char → Option Nat) : List Char → Option (List Nat)
  | [] => none
  | [c] => (value? c).map ([·])
  | c :: '_' :: rest =>
      match value? c with
      | none => none
      | some d => (readDigits? value? rest).map (d :: ·)
  | c :: rest =>
      match value? c with
      | none => none
      | some d => (readDigits? value? rest).map (d :: ·)

/-- The number that a row of decimal digits denotes. -/
def ofDigits (digits : List Nat) : Nat :=
  digits.foldl (fun n d => 10 * n + d) 0

/-- Splits off an optional sign; the flag says whether it is a minus. -/
def splitSign : List Char → Bool × List Char
  | '+' :: rest => (false, rest)
  | '-' :: rest => (true, rest)
  | rest => (false, rest)

/-- More digits than this are not read. -/
def digitLimit : Nat :=
  4300

def signed (negative : Bool) (n : Nat) : Int :=
  if negative then -(n : Int) else n

/-- Reads a whole number written with the decimal digits of any script. -/
def readInteger? (text : String) : Option Int :=
  let (negative, body) := splitSign (trimBy isBlank text.toList)
  match readDigits? digitValue? body with
  | none => none
  | some digits =>
      if digits.length ≤ digitLimit then
        some (signed negative (ofDigits digits))
      else
        none

/-- Leaves out a fractional part that holds zeros only. -/
def dropZeroFraction (cs : List Char) : List Char :=
  match cs.dropWhile (· ≠ '.') with
  | '.' :: fraction =>
      if fraction.all (· == '0') then cs.takeWhile (· ≠ '.') else cs
  | _ => cs

/-- Reads a whole number written with ASCII digits, where a fractional part of
zeros is allowed. -/
def readPlainInteger? (text : String) : Option Int :=
  let (negative, body) := splitSign (trimBy isWhiteSpace text.toList)
  (readDigits? asciiDigitValue? (dropZeroFraction body)).map fun digits =>
    signed negative (ofDigits digits)

end Text
end TapeLang
