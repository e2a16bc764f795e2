import TapeLang.Byte
import TapeLang.Config
import TapeLang.Program

/-!
# State of a run

The cells of the tape, the data pointer, the index of the next instruction and
the number of instructions carried out.

**Results.** A cell is reached through `place?`, so that a negative pointer
counts from the end of the tape; values are stored modulo 256.  `window` lists
the cells around the pointer, which `mem_window_iff` names, and `snapshot` is
the record of a state that reports show.
-/

namespace TapeLang

/-- What a run changes, apart from its input and output. -/
structure State where
  cells : Array UInt8
  /-- Index of the current cell. -/
  pointer : Int := 0
  /-- Index of the next instruction. -/
  pc : Int := 0
  /-- Instructions carried out so far. -/
  steps : Int := 0
deriving DecidableEq

/-- What a report shows of a state. -/
structure Snapshot where
  tapeSize : Setting
  pointer : Int
  pc : Int
  steps : Int
  /-- Addresses and values of the cells near the pointer, ascending. -/
  cells : List (Nat × UInt8)
deriving DecidableEq

/-- What a person may do to the current cell. -/
inductive CellEdit where
  | read
  | store (value : Int)
  | add (value : Int)
  | point (pointer : Int)
deriving DecidableEq

namespace State

/-- A tape of zeros, with the pointer on its first cell. -/
def blank (size : Nat) : State :=
  { cells := Array.replicate size 0 }

section Moves

/-- The state with its pointer in another place. -/
def pointTo (s : State) (pointer : Int) : State :=
  { s with pointer := pointer }

/-- The state one step later, with the instruction after index `pc` next. -/
def goOn (s : State) (pc : Int) : State :=
  { s with pc := pc + 1, steps := s.steps + 1 }

@[simp] theorem pointer_pointTo (s : State) (pointer : Int) :
    (s.pointTo pointer).pointer = pointer :=
  rfl

@[simp] theorem pointer_goOn (s : State) (pc : Int) : (s.goOn pc).pointer = s.pointer :=
  rfl

end Moves

section Cells

/-- The address of the current cell; `none` if the pointer is off the tape. -/
def address? (s : State) : Option Nat :=
  place? s.cells.size s.pointer

def valueAt (s : State) (address : Nat) : UInt8 :=
  s.cells.getD address 0

def storeAt (s : State) (address : Nat) (value : UInt8) : State :=
  { s with cells := s.cells.setIfInBounds address value }

def cell? (s : State) : Option UInt8 :=
  s.address?.map s.valueAt

/-- Carries out an edit.  It fails if it needs the current cell and the pointer
is off the tape. -/
def edit? (s : State) : CellEdit → Option State
  | .read => s.address?.map fun _ => s
  | .store value => s.address?.map fun a => s.storeAt a (byteOf value)
  | .add value =>
      s.address?.map fun a =>
        s.storeAt a (byteOf ((s.valueAt a).toNat + value))
  | .point pointer => some (s.pointTo pointer)

@[simp] theorem size_storeAt (s : State) (address : Nat) (value : UInt8) :
    (s.storeAt address value).cells.size = s.cells.size := by
  simp [storeAt]

@[simp] theorem pointer_storeAt (s : State) (a : Nat) (value : UInt8) :
    (s.storeAt a value).pointer = s.pointer :=
  rfl

theorem valueAt_storeAt_self {s : State} {a : Nat} (h : a < s.cells.size) (value : UInt8) :
    (s.storeAt a value).valueAt a = value := by
  simp [valueAt, storeAt, h]

theorem valueAt_storeAt_of_ne {s : State} {a b : Nat} (h : b ≠ a) (value : UInt8) :
    (s.storeAt a value).valueAt b = s.valueAt b := by
  simp [valueAt, storeAt, Array.getD_eq_getD_getElem?, Array.getElem?_setIfInBounds_ne h.symm]

end Cells

section Views

/-- The radius of the window that a fault records. -/
def defaultRadius : Int :=
  8

/-- The cells within a radius of the pointer, with their addresses. -/
def window (s : State) (radius : Int) : List (Nat × UInt8) :=
  let first := (max 0 (s.pointer - radius)).toNat
  let stop := (min (s.cells.size : Int) (s.pointer + radius + 1)).toNat
  (List.range' first (stop - first)).map fun a => (a, s.valueAt a)

/-- A window shows the cells of the tape whose distance from the pointer is at
most its radius, and no others. -/
theorem mem_window_iff {s : State} {radius : Int} {a : Nat} {value : UInt8} :
    (a, value) ∈ s.window radius ↔
      a < s.cells.size ∧ s.pointer - radius ≤ a ∧ a ≤ s.pointer + radius ∧
        value = s.valueAt a := by
  simp only [window, List.mem_map, List.mem_range'_1, Prod.mk.injEq]
  constructor
  · rintro ⟨b, hb, rfl, rfl⟩
    refine ⟨?_, ?_, ?_, rfl⟩ <;> omega
  · rintro ⟨h1, h2, h3, rfl⟩
    exact ⟨a, by omega, rfl, rfl⟩

/-- The cells that are not zero, with their addresses. -/
def nonzero (s : State) : List (Nat × UInt8) :=
  (List.range s.cells.size).filterMap fun a =>
    let value := s.valueAt a
    if value = 0 then none else some (a, value)

/-- The record of a state on a tape whose size was given as `tapeSize`. -/
def snapshot (s : State) (tapeSize : Setting) (radius : Int) : Snapshot :=
  { tapeSize := tapeSize
    pointer := s.pointer
    pc := s.pc
    steps := s.steps
    cells := s.window radius }

end Views

end State

namespace Snapshot

/-- The record in JSON; a cell's address is its name. -/
def toJson (s : Snapshot) : Json :=
  .object
    [ ("tape_size", s.tapeSize.toJson),
      ("pointer", .int s.pointer),
      ("pc", .int s.pc),
      ("steps", .int s.steps),
      ("cells", .object (s.cells.map fun (a, v) => (toString a, .nat v.toNat))) ]

end Snapshot
end TapeLang
