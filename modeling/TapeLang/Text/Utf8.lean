/-!
# Bytes as text

**Input.** A sequence of bytes that should be UTF-8.
**Algorithm.** The decoder reads one byte at a time and remembers how an
unfinished sequence may go on.  A byte that cannot go on with it ends the
sequence, which becomes one replacement character, and is read afresh.
**Results.** `decode` replaces every maximal ill-formed subsequence by U+FFFD,
`joinLines` makes one line feed of every line ending, and `latin1` reads one
character per byte.
-/

namespace TapeLang
namespace Text

namespace Utf8

/-- An unfinished sequence: what it has given so far, the bounds of its next
byte, and how many bytes are still to come after that one. -/
structure Pending where
  value : Nat
  low : UInt8
  high : UInt8
  more : Nat

/-- A decoder between two bytes: the characters so far, latest first, and the
sequence under way. -/
structure Decoder where
  written : List Char
  pending : Option Pending

/-- The character that stands for an ill-formed sequence. -/
def replacement : Char :=
  '\ufffd'

/-- Reads the first byte of a sequence. -/
def beginSequence (written : List Char) (b : UInt8) : Decoder :=
  if b < 0x80 then
    ⟨Char.ofNat b.toNat :: written, none⟩
  else if 0xc2 ≤ b ∧ b ≤ 0xdf then
    ⟨written, some ⟨b.toNat - 0xc0, 0x80, 0xbf, 0⟩⟩
  else if 0xe0 ≤ b ∧ b ≤ 0xef then
    let low := if b = 0xe0 then 0xa0 else 0x80
    let high := if b = 0xed then 0x9f else 0xbf
    ⟨written, some ⟨b.toNat - 0xe0, low, high, 1⟩⟩
  else if 0xf0 ≤ b ∧ b ≤ 0xf4 then
    let low := if b = 0xf0 then 0x90 else 0x80
    let high := if b = 0xf4 then 0x8f else 0xbf
    ⟨written, some ⟨b.toNat - 0xf0, low, high, 2⟩⟩
  else
    ⟨replacement :: written, none⟩

def Decoder.read (d : Decoder) (b : UInt8) : Decoder :=
  match d.pending with
  | none => beginSequence d.written b
  | some p =>
      if p.low ≤ b ∧ b ≤ p.high then
        let value := p.value * 0x40 + (b.toNat - 0x80)
        match p.more with
        | 0 => ⟨Char.ofNat value :: d.written, none⟩
        | more + 1 => ⟨d.written, some ⟨value, 0x80, 0xbf, more⟩⟩
      else
        beginSequence (replacement :: d.written) b

/-- The characters once no byte is left. -/
def Decoder.finish (d : Decoder) : List Char :=
  match d.pending with
  | none => d.written.reverse
  | some _ => (replacement :: d.written).reverse

/-- The text of a sequence of bytes. -/
def decode (bytes : List UInt8) : List Char :=
  (bytes.foldl Decoder.read ⟨[], none⟩).finish

end Utf8

/-- Writes every line ending, be it `\r\n`, `\r` or `\n`, as one line feed. -/
def joinLines (cs : List Char) : List Char :=
  let step := fun (state : List Char × Bool) c =>
    let (written, afterReturn) := state
    if c = '\r' then
      ('\n' :: written, true)
    else if c = '\n' ∧ afterReturn then
      (written, false)
    else
      (c :: written, false)
  (cs.foldl step ([], false)).1.reverse

/-- The text of a file: its bytes as UTF-8, with its line endings joined. -/
def ofFile (bytes : List UInt8) : String :=
  String.ofList (joinLines (Utf8.decode bytes))

/-- One character per byte: byte `n` is the character U+00n. -/
def latin1 (bytes : List UInt8) : String :=
  String.ofList (bytes.map fun b => Char.ofNat b.toNat)

/-- The bytes of a text all of whose characters are single bytes; otherwise the
first character that is not, with its position. -/
def latin1Bytes (text : String) : Except (Char × Nat) (List UInt8) :=
  match text.toList.zipIdx.find? fun (c, _) => 0xff < c.toNat with
  | some wide => .error wide
  | none => .ok (text.toList.map fun c => UInt8.ofNat c.toNat)

end Text
end TapeLang
