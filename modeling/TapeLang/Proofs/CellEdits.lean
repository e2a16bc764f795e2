import Mathlib.Data.Int.ModEq
import Mathlib.Data.List.DropRight
import Mathlib.Data.List.Induction
import Mathlib.Tactic
import TapeLang.Machine.Step

/-!
# Edits of a tape, one after another

The current cell can be read, a number can be stored in it or added to it, and the
pointer can be put anywhere, on the tape or off it.

**Input.** A tape of any number of cells and any sequence of edits.
**Algorithm.** `State.carryOut` carries out one edit, and `State.edited` a sequence of
them; an edit that fails leaves the state as it is, and the next one goes on.  Which edits
reach an address is read off the sequence alone: `CellEdit.reaching`.
**Results.** `State.Outcome` lists all that an edit can do.  Cells are reduced modulo 256
at every edit, but this can wait until the end: `State.valueAt_edited` says that a cell is
congruent to its balance, which is kept in whole numbers.  `edits_settle_cells` states this
of a fresh tape, and says when an edit fails.
-/

namespace TapeLang

/-- A pointer stands for an address: the one with its own number or, if the pointer is
negative, the one that far from the end of the tape. -/
def StandsFor (size : Nat) (pointer : Int) (a : Nat) : Prop :=
  (0 ≤ pointer ∧ pointer < size ∧ (a : Int) = pointer) ∨
    (-(size : Int) ≤ pointer ∧ pointer < 0 ∧ (a : Int) = pointer + size)

instance (size : Nat) (pointer : Int) (a : Nat) : Decidable (StandsFor size pointer a) :=
  inferInstanceAs (Decidable (_ ∨ _))

namespace CellEdit

section Histories

/-- Whether an edit needs the current cell. -/
def needsCell : CellEdit → Bool
  | .point _ => false
  | _ => true

/-- The pointer after an edit. -/
def pointerAfter (pointer : Int) : CellEdit → Int
  | .point target => target
  | _ => pointer

/-- The number that an edit stores. -/
def stored? : CellEdit → Option Int
  | .store value => some value
  | _ => none

/-- The number that an edit adds. -/
def amount : CellEdit → Int
  | .add value => value
  | _ => 0

/-- What an edit makes of a number. -/
def apply (n : Int) : CellEdit → Int
  | .read => n
  | .store value => value
  | .add value => n + value
  | .point _ => n

/-- The edits of a sequence that find the pointer on an address, in order. -/
def reaching (size a : Nat) : Int → List CellEdit → List CellEdit
  | _, [] => []
  | pointer, edit :: rest =>
      (if StandsFor size pointer a then [edit] else []) ++
        reaching size a (edit.pointerAfter pointer) rest

/-- The last number that a sequence stores, or `start` if it stores none. -/
def lastStored (start : Int) (edits : List CellEdit) : Int :=
  (edits.filterMap stored?).getLast?.getD start

/-- The sum of the numbers that a sequence adds after it last stored one. -/
def addedSince (edits : List CellEdit) : Int :=
  ((edits.rtakeWhile fun edit => edit.stored? = none).map amount).sum

/-- What the edits that reach a cell make of its first value, in whole numbers. -/
def balance (start : Int) (edits : List CellEdit) : Int :=
  lastStored start edits + addedSince edits

end Histories

section Last

variable (start : Int) (edits : List CellEdit) (edit : CellEdit)

/-- One more edit acts on the balance. -/
theorem balance_snoc : balance start (edits ++ [edit]) = edit.apply (balance start edits) := by
  cases edit with
  | store value =>
      have hsince : addedSince (edits ++ [.store value]) = 0 := by
        rw [addedSince, List.rtakeWhile_concat_neg _ _ _ (by simp [stored?])]
        rfl
      have hlast : lastStored start (edits ++ [.store value]) = value := by
        simp [lastStored, stored?]
      rw [balance, hsince, hlast, add_zero, apply]
  | read
  | add value
  | point target =>
      rw [balance, balance, addedSince, addedSince,
        List.rtakeWhile_concat_pos _ _ _ (by simp [stored?])]
      simp [lastStored, stored?, amount, apply, add_assoc]

theorem reaching_snoc (size a : Nat) (pointer : Int) :
    reaching size a pointer (edits ++ [edit]) =
      reaching size a pointer edits ++
        if StandsFor size (edits.foldl pointerAfter pointer) a then [edit] else [] := by
  induction edits generalizing pointer with
  | nil => exact List.append_nil _
  | cons first rest ih =>
      rw [List.cons_append, reaching, reaching, ih, List.foldl_cons, List.append_assoc]

theorem apply_modEq {x y : Int} (h : x ≡ y [ZMOD 256]) :
    edit.apply x ≡ edit.apply y [ZMOD 256] := by
  cases edit with
  | store value => rfl
  | add value => exact h.add_right value
  | read => exact h
  | point target => exact h

end Last

end CellEdit

namespace State

/-- Carries out an edit.  One that fails tells what stands against it, and leaves the state
as it is. -/
def carryOut (s : State) (edit : CellEdit) : Option Breakdown × State :=
  match s.edit? edit with
  | none => (some .cellOffTape, s)
  | some next => (none, next)

/-- The state after a sequence of edits, those that fail included. -/
def edited (s : State) (edits : List CellEdit) : State :=
  edits.foldl (fun s edit => (s.carryOut edit).2) s

/-- All that an edit can do: it fails with the pointer off the tape, or it changes the cell
that the pointer stands for, or it moves the pointer. -/
inductive Outcome (s : State) : CellEdit → Option Breakdown × State → Prop
  | offTape {edit : CellEdit}
      (hneeds : edit.needsCell = true)
      (hoff : ∀ a, ¬ StandsFor s.cells.size s.pointer a) :
      Outcome s edit (some .cellOffTape, s)
  | read {a : Nat}
      (ha : StandsFor s.cells.size s.pointer a) :
      Outcome s .read (none, s)
  | store {a : Nat} (value : Int)
      (ha : StandsFor s.cells.size s.pointer a) :
      Outcome s (.store value) (none, s.storeAt a (byteOf value))
  | add {a : Nat} (value : Int)
      (ha : StandsFor s.cells.size s.pointer a) :
      Outcome s (.add value) (none, s.storeAt a (byteOf ((s.valueAt a).toNat + value)))
  | point (target : Int) :
      Outcome s (.point target) (none, { s with pointer := target })

section Addresses

variable {s : State} {a : Nat}

theorem address?_eq_some_iff : s.address? = some a ↔ StandsFor s.cells.size s.pointer a := by
  rw [address?, place?_eq_some_iff, StandsFor]
  omega

theorem address?_eq_none_iff :
    s.address? = none ↔ ∀ a, ¬ StandsFor s.cells.size s.pointer a := by
  simp only [Option.eq_none_iff_forall_ne_some, ne_eq, address?_eq_some_iff]

theorem standsFor_unique {size : Nat} {pointer : Int} {b : Nat}
    (ha : StandsFor size pointer a) (hb : StandsFor size pointer b) : b = a := by
  rw [StandsFor] at ha hb
  omega

/-- Reading gives the value of the cell that the pointer stands for. -/
theorem cell?_eq_some_iff {value : UInt8} :
    s.cell? = some value ↔
      ∃ a, StandsFor s.cells.size s.pointer a ∧ s.cells[a]? = some value := by
  simp only [cell?, Option.map_eq_some_iff, address?_eq_some_iff]
  refine exists_congr fun a => and_congr_right fun ha => ?_
  have hlt : a < s.cells.size := lt_of_place? (address?_eq_some_iff.2 ha)
  simp [valueAt, hlt]

end Addresses

section Step

variable {s : State} {edit : CellEdit} {result : Option Breakdown × State}

/-- An edit does what its outcome says, and nothing else. -/
theorem outcome (s : State) (edit : CellEdit) : s.Outcome edit (s.carryOut edit) := by
  rw [carryOut]
  cases haddress : s.address? with
  | none =>
      have hoff := address?_eq_none_iff.1 haddress
      cases edit with
      | point target => exact .point target
      | read
      | store value
      | add value =>
          rw [edit?, haddress]
          exact .offTape rfl hoff
  | some a =>
      have ha := address?_eq_some_iff.1 haddress
      cases edit with
      | point target => exact .point target
      | read =>
          rw [edit?, haddress]
          exact .read ha
      | store value =>
          rw [edit?, haddress]
          exact .store value ha
      | add value =>
          rw [edit?, haddress]
          exact .add value ha

theorem Outcome.size_eq (h : s.Outcome edit result) :
    result.2.cells.size = s.cells.size := by
  cases h with
  | store value ha => exact size_storeAt s _ _
  | add value ha => exact size_storeAt s _ _
  | _ => rfl

theorem Outcome.pointer_eq (h : s.Outcome edit result) :
    result.2.pointer = edit.pointerAfter s.pointer := by
  cases h with
  | @offTape edit hneeds hoff =>
      cases edit with
      | point target => cases hneeds
      | _ => rfl
  | _ => rfl

theorem Outcome.counters_eq (h : s.Outcome edit result) :
    result.2.pc = s.pc ∧ result.2.steps = s.steps := by
  cases h <;> exact ⟨rfl, rfl⟩

/-- An edit succeeds if and only if the pointer stands for a cell or no cell is needed. -/
theorem Outcome.succeeds_iff (h : s.Outcome edit result) :
    result.1 = none ↔
      (edit.needsCell = true → ∃ a, StandsFor s.cells.size s.pointer a) := by
  cases h with
  | offTape hneeds hoff => simpa [hneeds] using hoff
  | read ha => exact ⟨fun _ _ => ⟨_, ha⟩, fun _ => rfl⟩
  | store value ha => exact ⟨fun _ _ => ⟨_, ha⟩, fun _ => rfl⟩
  | add value ha => exact ⟨fun _ _ => ⟨_, ha⟩, fun _ => rfl⟩
  | point target => exact iff_of_true rfl fun hneeds => Bool.noConfusion hneeds

/-- An edit that fails names its cause and changes nothing. -/
theorem Outcome.unchanged (h : s.Outcome edit result) (hfails : result.1 ≠ none) :
    result = (some .cellOffTape, s) := by
  cases h with
  | offTape hneeds hoff => rfl
  | _ => exact absurd rfl hfails

/-- A number that is stored changes the cell that the pointer stands for and no other. -/
theorem valueAt_storeAt_modEq {b : Nat} {n : Int} (hb : StandsFor s.cells.size s.pointer b)
    (a : Nat) :
    (((s.storeAt b (byteOf n)).valueAt a).toNat : Int) ≡
      if StandsFor s.cells.size s.pointer a then n else (s.valueAt a).toNat [ZMOD 256] := by
  have hlt : b < s.cells.size := lt_of_place? (address?_eq_some_iff.2 hb)
  by_cases ha : StandsFor s.cells.size s.pointer a
  · obtain rfl := standsFor_unique hb ha
    rw [if_pos ha, valueAt_storeAt_self hlt, toNat_byteOf]
    exact Int.mod_modEq n 256
  · have hne : a ≠ b := fun hab => ha (hab ▸ hb)
    rw [if_neg ha, valueAt_storeAt_of_ne hne]

/-- An edit acts on the cell that the pointer stands for, up to a multiple of 256, and on no
other cell. -/
theorem Outcome.valueAt_modEq (h : s.Outcome edit result) (a : Nat) :
    ((result.2.valueAt a).toNat : Int) ≡
      if StandsFor s.cells.size s.pointer a then edit.apply (s.valueAt a).toNat
      else (s.valueAt a).toNat [ZMOD 256] := by
  cases h with
  | offTape hneeds hoff => rw [if_neg (hoff a)]
  | read ha => rw [CellEdit.apply, ite_self]
  | store value ha => exact valueAt_storeAt_modEq ha a
  | @add b value hb =>
      refine (valueAt_storeAt_modEq hb a).trans ?_
      by_cases ha : StandsFor s.cells.size s.pointer a
      · rw [if_pos ha, if_pos ha, standsFor_unique ha hb]
        rfl
      · rw [if_neg ha, if_neg ha]
  | point target =>
      rw [CellEdit.apply, ite_self]
      rfl

end Step

section Sequence

variable (s : State) (edits : List CellEdit)

theorem edited_snoc (edit : CellEdit) :
    s.edited (edits ++ [edit]) = ((s.edited edits).carryOut edit).2 := by
  rw [edited, List.foldl_append]
  rfl

theorem size_edited : (s.edited edits).cells.size = s.cells.size := by
  induction edits using List.reverseRecOn with
  | nil => rfl
  | append_singleton edits edit ih =>
      rw [edited_snoc, ((s.edited edits).outcome edit).size_eq, ih]

/-- The pointer is where the last edit put it that moved it. -/
theorem pointer_edited :
    (s.edited edits).pointer = edits.foldl CellEdit.pointerAfter s.pointer := by
  induction edits using List.reverseRecOn with
  | nil => rfl
  | append_singleton edits edit ih =>
      rw [edited_snoc, ((s.edited edits).outcome edit).pointer_eq, ih, List.foldl_append]
      rfl

theorem counters_edited : (s.edited edits).pc = s.pc ∧ (s.edited edits).steps = s.steps := by
  induction edits using List.reverseRecOn with
  | nil => exact ⟨rfl, rfl⟩
  | append_singleton edits edit ih =>
      obtain ⟨hpc, hsteps⟩ := ((s.edited edits).outcome edit).counters_eq
      rw [edited_snoc, hpc, hsteps]
      exact ih

/-- A cell is congruent to the balance of the edits that reach it.  The induction takes the
last edit off: the balance grows at its end, and the state before that edit tells whether it
reaches the cell. -/
theorem valueAt_edited (a : Nat) :
    (((s.edited edits).valueAt a).toNat : Int) ≡
      CellEdit.balance (s.valueAt a).toNat
        (CellEdit.reaching s.cells.size a s.pointer edits) [ZMOD 256] := by
  induction edits using List.reverseRecOn with
  | nil =>
      simp [edited, CellEdit.reaching, CellEdit.balance, CellEdit.lastStored,
        CellEdit.addedSince]
  | append_singleton edits edit ih =>
      have hstep := ((s.edited edits).outcome edit).valueAt_modEq a
      rw [size_edited, pointer_edited] at hstep
      rw [edited_snoc, CellEdit.reaching_snoc]
      by_cases ha : StandsFor s.cells.size (edits.foldl CellEdit.pointerAfter s.pointer) a
      · rw [if_pos ha] at hstep
        rw [if_pos ha, CellEdit.balance_snoc]
        exact hstep.trans (edit.apply_modEq ih)
      · rw [if_neg ha] at hstep
        rw [if_neg ha, List.append_nil]
        exact hstep.trans ih

end Sequence

end State

/-- **Cells hold what was stored and added.**  After any sequence of edits of a tape of zeros,
an edit that needs the current cell succeeds if and only if the pointer stands for an address,
and otherwise leaves the state as it is.  The tape keeps its size, and each cell is the
remainder modulo 256 of the last number stored at its address, or of zero, and of the numbers
added there since. -/
theorem edits_settle_cells {size : Nat} {start s : State} {edits : List CellEdit}
    (hblank : start.cells = Array.replicate size 0) (hedited : start.edited edits = s) :
    (∀ edit : CellEdit,
      ((s.carryOut edit).1 = none ↔
          (edit.needsCell = true → ∃ a, StandsFor size s.pointer a)) ∧
        ((s.carryOut edit).1 ≠ none → s.carryOut edit = (some .cellOffTape, s)))
      ∧
    (∀ value, s.cell? = some value ↔
      ∃ a, StandsFor size s.pointer a ∧ s.cells[a]? = some value)
      ∧
    s.pointer = edits.foldl CellEdit.pointerAfter start.pointer ∧
    s.pc = start.pc ∧ s.steps = start.steps ∧ s.cells.size = size ∧
    ∀ a < size,
      ((s.valueAt a).toNat : Int) =
        (CellEdit.lastStored 0 (CellEdit.reaching size a start.pointer edits) +
          CellEdit.addedSince (CellEdit.reaching size a start.pointer edits)) % 256 := by
  subst hedited
  have hstart : start.cells.size = size := by rw [hblank, Array.size_replicate]
  have hsize : (start.edited edits).cells.size = size := by rw [State.size_edited, hstart]
  obtain ⟨hpc, hsteps⟩ := start.counters_edited edits
  refine ⟨fun edit => ?_, fun value => ?_, start.pointer_edited edits, hpc, hsteps, hsize,
    fun a ha => ?_⟩
  · have houtcome := (start.edited edits).outcome edit
    exact ⟨hsize ▸ houtcome.succeeds_iff, houtcome.unchanged⟩
  · rw [State.cell?_eq_some_iff, hsize]
  · have hzero : start.valueAt a = 0 := by simp [State.valueAt, hblank, ha]
    have hcell := start.valueAt_edited edits a
    rw [hzero, hstart] at hcell
    have hbyte := ((start.edited edits).valueAt a).toNat_lt
    rw [← Int.emod_eq_of_lt (Int.natCast_nonneg _) (by omega : _ < (256 : Int))]
    exact hcell

/-- Three cells: the first is reached from both ends, an edit behind the last one fails, and
the last cell wraps more than once. -/
theorem edits_settle_cells_alias :
    (State.blank 3).cells = Array.replicate 3 0 ∧
      (∃ s, (State.blank 3).edited [.store 300, .point (-3), .add (-50), .point 3] = s ∧
        s.carryOut (.store 1) = (some .cellOffTape, s)) ∧
      ∃ s, (State.blank 3).edited [.store 300, .point (-3), .add (-50), .point 3, .store 1,
          .point (-1), .add 1000] = s ∧
        ((s.valueAt 0).toNat : Int) = 250 ∧ ((s.valueAt 2).toNat : Int) = 232 := by
  have hblank : (State.blank 3).cells = Array.replicate 3 0 := rfl
  refine ⟨hblank, ⟨_, rfl, ?_⟩, _, rfl, ?_⟩
  · exact ((edits_settle_cells hblank rfl).1 (.store 1)).2 (by decide)
  · obtain ⟨-, -, -, -, -, -, hcells⟩ := edits_settle_cells (s := State.edited _ _) hblank rfl
    exact ⟨hcells 0 (by decide), hcells 2 (by decide)⟩

end TapeLang
