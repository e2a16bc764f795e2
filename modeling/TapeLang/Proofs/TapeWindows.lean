import Mathlib.Data.List.Sort
import Mathlib.Tactic
import TapeLang.Machine.State

/-!
# Windows on the tape

A window lists the cells around the pointer, and a snapshot shows a window under the decimal
names of its addresses.

**Input.** A tape of any number of cells, a pointer on the tape or off it, and a radius of
either sign.
**Algorithm.** A window runs from a first address, which is not below zero, up to an address
that is not past the end of the tape; it is empty if the second does not lie after the first.
**Results.** `State.window_eq_filter`: a window is the whole tape with the far addresses left
out.  `snapshot_shows_neighbourhood`: it is ascending, shows the cells near the pointer and
no others, is part of every wider window, and a snapshot gives each of them one name.
-/

namespace TapeLang

/-- A number in decimal digits. -/
def decimalName (n : Nat) : String :=
  String.ofList (Nat.toDigits 10 n)

/-- The digits of a name can be read back. -/
theorem decimalName_injective : Function.Injective decimalName := by
  have hread : Function.LeftInverse (fun name => Nat.ofDigitChars 10 name.toList 0)
      decimalName := by
    intro n
    simp only [decimalName, String.toList_ofList, Nat.ofDigitChars_ten_toDigits]
  exact hread.injective

/-- In an object that has no name twice, a name gives the value that stands beside it. -/
theorem Json.field?_object {fields : List (String × Json)}
    (hnames : (fields.map Prod.fst).Nodup) {name : String} {value : Json}
    (hmem : (name, value) ∈ fields) :
    (Json.object fields).field? name = some value := by
  rw [field?, Option.map_eq_some_iff]
  cases hfind : fields.reverse.find? fun field => field.1 == name with
  | none =>
      have hnone := List.find?_eq_none.1 hfind (name, value) (List.mem_reverse.2 hmem)
      exact absurd (beq_self_eq_true name) hnone
  | some found =>
      have hfound : found ∈ fields := List.mem_reverse.1 (List.mem_of_find?_eq_some hfind)
      have hname : found.1 = name := by
        simpa using List.find?_some hfind
      exact ⟨found, rfl, congrArg Prod.snd (List.inj_on_of_nodup_map hnames hfound hmem hname)⟩

namespace State

section Window

variable (s : State) (radius : Int)

/-- A window is the whole tape with the addresses left out that are far from the pointer: both
rows of addresses ascend, and they have the same members. -/
theorem window_eq_filter :
    s.window radius =
      ((List.range s.cells.size).filter fun a : Nat => |(a : Int) - s.pointer| ≤ radius).map
        fun a => (a, s.valueAt a) := by
  rw [window]
  congr 1
  refine List.Pairwise.eq_of_mem_iff List.pairwise_lt_range' (List.pairwise_lt_range.filter _)
    fun a => ?_
  simp only [List.mem_range'_1, List.mem_filter, List.mem_range, decide_eq_true_eq, abs_le]
  omega

theorem addresses_window :
    (s.window radius).map Prod.fst =
      (List.range s.cells.size).filter fun a : Nat => |(a : Int) - s.pointer| ≤ radius := by
  rw [window_eq_filter, List.map_map]
  exact List.map_id _

theorem pairwise_window : ((s.window radius).map Prod.fst).Pairwise (· < ·) := by
  rw [addresses_window]
  exact List.pairwise_lt_range.filter _

/-- A window shows cells of the tape, and those whose distance from the pointer is at most its
radius. -/
theorem mem_window {a : Nat} {value : UInt8} :
    (a, value) ∈ s.window radius ↔
      s.cells[a]? = some value ∧ |(a : Int) - s.pointer| ≤ radius := by
  rw [mem_window_iff, abs_le, Array.getElem?_eq_some_iff]
  constructor
  · rintro ⟨hlt, hlow, hhigh, rfl⟩
    exact ⟨⟨hlt, by simp [valueAt, hlt]⟩, by omega, by omega⟩
  · rintro ⟨⟨hlt, rfl⟩, hlow, hhigh⟩
    exact ⟨hlt, by omega, by omega, by simp [valueAt, hlt]⟩

/-- A window is what a wider one shows within its radius. -/
theorem window_restrict {wider : Int} (h : radius ≤ wider) :
    s.window radius =
      (s.window wider).filter fun cell => |(cell.1 : Int) - s.pointer| ≤ radius := by
  rw [window_eq_filter, window_eq_filter, List.filter_map, List.filter_filter]
  congr 1
  refine List.filter_congr fun a _ => ?_
  simp only [Function.comp_apply, ← Bool.decide_and, decide_eq_decide]
  exact ⟨fun hnear => ⟨hnear, hnear.trans h⟩, And.left⟩

end Window

end State

section Snapshots

variable (s : State) (tapeSize : Setting) (radius : Int)

/-- The cells of a snapshot in JSON: a window under the decimal names of its addresses. -/
def State.namedWindow : List (String × Json) :=
  (s.window radius).map fun cell => (decimalName cell.1, Json.nat cell.2.toNat)

theorem field?_cells_snapshot :
    (s.snapshot tapeSize radius).toJson.field? "cells" = some (.object (s.namedWindow radius)) := by
  have hnamed : s.namedWindow radius =
      (s.window radius).map fun cell => (toString cell.1, Json.nat cell.2.toNat) := by
    simp only [State.namedWindow, decimalName, Nat.toString_eq_ofList_toDigits]
  rw [hnamed]
  rfl

theorem names_namedWindow :
    (s.namedWindow radius).map Prod.fst =
      ((s.window radius).map Prod.fst).map decimalName := by
  rw [State.namedWindow, List.map_map, List.map_map]
  rfl

/-- A snapshot names no cell twice. -/
theorem nodup_namedWindow : ((s.namedWindow radius).map Prod.fst).Nodup := by
  rw [names_namedWindow]
  exact (s.pairwise_window radius).nodup.map decimalName_injective

end Snapshots

/-- **Snapshots show exactly the cells near the pointer.**  Wherever the pointer is and whatever
the radius, a window lists in ascending order, each once, the addresses of the tape whose
distance from the pointer is at most the radius, with the values of their cells.  A snapshot has
one decimal name for each of them, under which it shows the same value, and a window is what
any wider one shows within its radius. -/
theorem snapshot_shows_neighbourhood (s : State) (radius : Int) :
    ((s.window radius).map Prod.fst).Pairwise (· < ·)
      ∧
    (∀ a value, (a, value) ∈ s.window radius ↔
      s.cells[a]? = some value ∧ |(a : Int) - s.pointer| ≤ radius)
      ∧
    (∀ tapeSize, ∃ cells,
      (s.snapshot tapeSize radius).toJson.field? "cells" = some (.object cells) ∧
        cells.map Prod.fst = ((s.window radius).map Prod.fst).map decimalName ∧
        (cells.map Prod.fst).Nodup ∧
        ∀ a value, (a, value) ∈ s.window radius →
          (Json.object cells).field? (decimalName a) = some (.nat value.toNat))
      ∧
    (∀ wider, radius ≤ wider →
      s.window radius =
        (s.window wider).filter fun cell => |(cell.1 : Int) - s.pointer| ≤ radius) := by
  refine ⟨s.pairwise_window radius, fun a value => s.mem_window radius, fun tapeSize => ?_,
    fun wider h => s.window_restrict radius h⟩
  refine ⟨s.namedWindow radius, field?_cells_snapshot s tapeSize radius,
    names_namedWindow s radius, nodup_namedWindow s radius, fun a value hmem => ?_⟩
  exact Json.field?_object (nodup_namedWindow s radius) (List.mem_map.2 ⟨(a, value), hmem, rfl⟩)

/-- A pointer two places behind the last of five cells: a window that shows one cell, one that
shows none, and the name of the cell in a snapshot. -/
theorem snapshot_shows_neighbourhood_behind :
    State.window { cells := #[1, 2, 3, 4, 5], pointer := 6 } 2 =
        (State.window { cells := #[1, 2, 3, 4, 5], pointer := 6 } 3).filter
          (fun cell => |(cell.1 : Int) - 6| ≤ 2) ∧
      State.window { cells := #[1, 2, 3, 4, 5], pointer := 6 } (-1) =
        (State.window { cells := #[1, 2, 3, 4, 5], pointer := 6 } 3).filter
          (fun cell => |(cell.1 : Int) - 6| ≤ -1) ∧
      State.window { cells := #[1, 2, 3, 4, 5], pointer := 6 } 3 = [(3, 4), (4, 5)] ∧
      ∃ cells,
        (State.snapshot { cells := #[1, 2, 3, 4, 5], pointer := 6 } (.number 5) 2).toJson.field?
            "cells" = some (.object cells) ∧
          (Json.object cells).field? "4" = some (.nat 5) := by
  have hone := snapshot_shows_neighbourhood { cells := #[1, 2, 3, 4, 5], pointer := 6 } 2
  have hnone := snapshot_shows_neighbourhood { cells := #[1, 2, 3, 4, 5], pointer := 6 } (-1)
  obtain ⟨cells, hcells, -, -, hvalue⟩ := hone.2.2.1 (.number 5)
  exact ⟨hone.2.2.2 3 (by decide), hnone.2.2.2 3 (by decide), by decide, cells, hcells,
    hvalue 4 5 (by decide)⟩

end TapeLang
