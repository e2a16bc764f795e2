import TapeLang.Text.Printable

/-!
# Quoted text

**Input.** Any text.
**Results.** `quoted` writes a text between quotes on one line, so that every
character of it can be told apart: the quotes are single unless the text holds
a single quote and no double one; the backslash and the quote in use are
escaped; line feed, carriage return and tab have short escapes; every other
character that would not be shown as it is appears as its code point in
lower-case hexadecimal digits.
-/

namespace TapeLang
namespace Text

def singleQuote : Char :=
  '\x27'

def doubleQuote : Char :=
  '\x22'

/-- A number in lower-case hexadecimal digits, filled up with zeros to a width. -/
def hexDigits (width n : Nat) : List Char :=
  let digits := Nat.toDigits 16 n
  List.replicate (width - digits.length) '0' ++ digits

/-- The escape of a code point, as short as the point allows. -/
def codePointEscape (n : Nat) : List Char :=
  if n < 0x100 then
    '\\' :: 'x' :: hexDigits 2 n
  else if n < 0x10000 then
    '\\' :: 'u' :: hexDigits 4 n
  else
    '\\' :: 'U' :: hexDigits 8 n

/-- A character as it stands between two quotes. -/
def quotedChar (quote c : Char) : List Char :=
  if c = quote ∨ c = '\\' then
    ['\\', c]
  else if c = '\n' then
    ['\\', 'n']
  else if c = '\r' then
    ['\\', 'r']
  else if c = '\t' then
    ['\\', 't']
  else if isPrintable c then
    [c]
  else
    codePointEscape c.toNat

/-- The quote that a text is put between. -/
def quoteFor (cs : List Char) : Char :=
  if singleQuote ∈ cs ∧ doubleQuote ∉ cs then doubleQuote else singleQuote

/-- A text between quotes, with its hidden characters escaped. -/
def quoted (text : String) : String :=
  let quote := quoteFor text.toList
  String.ofList (quote :: (text.toList.flatMap (quotedChar quote) ++ [quote]))

end Text
end TapeLang
