import Mathlib.Tactic
import TapeLang.Proofs.FocusedTape

/-!
# The reverse program

The text `>,[>,]<[.<]` leaves its first cell zero, reads its input into the cells behind
it, and goes back to the first cell, writing on the way.

**Input.** Bytes without a zero, a tape of at least one cell, and the policy that reads a
zero at the end of input.
**Algorithm.** `Filling.peel` follows the rounds of the first loop over any part of the input,
whatever comes after them.  The rest of the input is empty, or the tape is at its end.
`emit` follows the second loop down to the first cell.
**Results.** `reverse_program`: a tape with two cells more than the input is long holds it,
and the input comes out reversed; on every shorter tape the program stops at the edge, with
nothing written and one byte read for each move.
-/

namespace TapeLang

namespace ReverseProgram

/-- The body of the first loop: `>,`. -/
def fillBody : Block :=
  .primitive .moveRight (.primitive .input .done)

/-- The body of the second loop: `.<`. -/
def emitBody : Block :=
  .primitive .output (.primitive .moveLeft .done)

/-- The tree of the text. -/
def tree : Block :=
  .primitive .moveRight (.primitive .input (.loop fillBody
    (.primitive .moveLeft (.loop emitBody .done))))

theorem tokenize_text : tokenize ">,[>,]<[.<]" = tree.flatten :=
  rfl

variable {size : Nat} {config : Config} {position : Nat}
variable {left right rest written : List UInt8} {c : UInt8}

section Fill

/-- A round of the first loop is about to begin: the pointer is on the last of the bytes that
were stored, and nothing was written. -/
def Filling (left : List UInt8) (c : UInt8) (position : Nat) (unread : List UInt8)
    (s : Store size Source Sink) : Prop :=
  ∃ h : left.length < size, s = .around left c [] h (.inUse position unread [])

/-- A round of the first loop stores the next byte behind the current cell. -/
theorem Filling.round {b : UInt8} {s : Store size Source Sink}
    (hs : Filling left c position (b :: rest) s) (hlt : left.length < size - 1) :
    ∃ next, Runs config 3 (.row fillBody) s 2 (.finished next) ∧ next.cell = b ∧
      Filling (left ++ [c]) b (position + 1) rest next := by
  obtain ⟨h, rfl⟩ := hs
  have hmove : left.length + 1 < size := by omega
  exact ⟨_, .primitive (Store.moveRight_around hmove) (.primitive Store.input_around .done),
    Store.cell_around, _, rfl⟩

/-- The rounds of the first loop store a part of the input behind the current cell and
leave its last byte under the pointer, whatever happens after them. -/
theorem Filling.peel {front : List UInt8} {s : Store size Source Sink}
    (hs : Filling left c position (front ++ rest) s) (hfront : 0 ∉ front)
    (hroom : left.length + front.length < size) (config : Config) :
    ∃ (left' : List UInt8) (c' : UInt8) (h' : left'.length < size),
      left' ++ [c'] = left ++ c :: front ∧
      ∀ n out,
        Runs config 3 (.rounds fillBody)
          (.around left' c' [] h' (.inUse (position + front.length) rest [])) n out →
        Runs config 3 (.rounds fillBody) s (3 * front.length + n) out := by
  obtain ⟨left', c', last, heq, ⟨h', rfl⟩, hruns⟩ :=
    Runs.peel_rounds config (size - 1) Filling
      (fun _ _ _ _ _ _ hlt hs => hs.round hlt) hfront (by omega) hs
  exact ⟨left', c', h', heq, hruns⟩

/-- With room for the input and a zero behind it, the first loop stores the input and ends
on that zero. -/
theorem fill {b : UInt8} (hrest : 0 ∉ rest) (heof : config.eof = .zero)
    {hmove : 1 < size} (h : (0 :: b :: rest).length < size) :
    Runs config 3 (.rounds fillBody) (.around [0] b [] hmove (.inUse 1 rest []))
      (3 * rest.length + 3)
      (.finished (.around (0 :: b :: rest) 0 [] h (.inUse (1 + rest.length) [] []))) := by
  rw [List.length_cons, List.length_cons] at h
  have hstart : Filling [0] b 1 (rest ++ []) (.around [0] b [] hmove (.inUse 1 rest [])) := by
    rw [List.append_nil]
    exact ⟨hmove, rfl⟩
  have hroom : [(0 : UInt8)].length + rest.length < size := by
    rw [List.length_singleton]
    omega
  obtain ⟨left, c, h', heq, hruns⟩ := hstart.peel hrest hroom config
  have hlast : left.length + 1 < size := by
    have hlength := congrArg List.length heq
    simp only [List.length_append, List.length_cons, List.length_nil] at hlength
    omega
  have hzero : Runs config 3 (.rounds fillBody)
      (.around left c [] h' (.inUse (1 + rest.length) [] [])) 3
      (.finished (.around (left ++ [c]) 0 [] (Store.length_concat_lt hlast)
        (.inUse (1 + rest.length) [] []))) :=
    .lastRound
      (.primitive (Store.moveRight_around hlast)
        (.primitive (Store.input_around_zero heof) .done))
      Store.cell_around
  simp only [heq, List.singleton_append] at hzero
  exact hruns 3 _ hzero

/-- At the edge of the tape the first loop stops. -/
theorem fill_edge {h : left.length < size} {env : Environment} (hedge : left.length + 1 = size) :
    Runs config 3 (.rounds fillBody) (.around left c [] h env) 0
      (.stopped (.fault (.pointerOutOfBounds size config.tapeSize 3)) 3
        (.around left c [] h env)) :=
  .roundStops (.primitiveStops (Store.moveRight_around_edge hedge))

end Fill

section Emit

variable {unread : List UInt8}

/-- One round of the second loop writes the current cell and goes to the one before it. -/
theorem emit_round (left : List UInt8) (c b : UInt8) {h : (left ++ [c]).length < size} :
    Runs config 8 (.row emitBody)
      (.around (left ++ [c]) b right h (.inUse position unread written)) 2
      (.finished (.around left c (b :: right) (Store.length_lt_of_concat left c h)
        (.inUse position unread (written ++ [b])))) :=
  .primitive Store.output_around (.primitive (Store.moveLeft_around left c) .done)

/-- The second loop writes the cells from the current one down to the second and ends on
the first, which is zero.  The induction takes bytes from the end of the row, since the
loop meets them in that order. -/
theorem emit (init : List UInt8) (hinit : 0 ∉ init) (b : UInt8) (right written : List UInt8)
    (h : (0 :: init).length < size) :
    Runs config 8 (.rounds emitBody)
      (.around (0 :: init) b right h (.inUse position unread written)) (3 * (init.length + 1))
      (.finished (.around [] 0 (init ++ b :: right) (Nat.zero_lt_of_lt h)
        (.inUse position unread (written ++ b :: init.reverse)))) := by
  induction init using List.reverseRecOn generalizing b right written with
  | nil => exact .lastRound (emit_round [] 0 b) Store.cell_around
  | append_singleton init last ih =>
      rw [List.mem_append, List.mem_singleton, not_or] at hinit
      have hrounds := ih hinit.1 last (b :: right) (written ++ [b])
        (Store.length_lt_of_concat (0 :: init) last h)
      have hsteps : 3 * ((init ++ [last]).length + 1) = 2 + 1 + 3 * (init.length + 1) := by
        rw [List.length_append, List.length_singleton]
        omega
      simp only [List.append_assoc, List.singleton_append, List.reverse_append,
        List.reverse_singleton] at hrounds ⊢
      rw [hsteps]
      exact .nextRound (emit_round (0 :: init) last b) (Store.cell_around_ne_zero hinit.2)
        hrounds

/-- Behind the last byte the program turns back, and comes to the first cell. -/
theorem emit_row {d : List UInt8} (hd : 0 ∉ d) (h : (0 :: d).length < size)
    (config : Config) (position : Nat) (unread : List UInt8) :
    ∃ right h', Runs config 6 (.row (.primitive .moveLeft (.loop emitBody .done)))
      (.around (0 :: d) 0 [] h (.inUse position unread [])) (3 * d.length + 2)
      (.finished (.around [] 0 right h' (.inUse position unread d.reverse))) := by
  have hpos : 0 < size := Nat.zero_lt_of_lt h
  cases d using List.reverseRecOn with
  | nil =>
      exact ⟨[0], hpos, .primitive (Store.moveLeft_around [] 0)
        (.skip Store.cell_around .done)⟩
  | append_singleton init b =>
      rw [List.mem_append, List.mem_singleton, not_or] at hd
      have hcells := Store.length_lt_of_concat (0 :: init) b h
      have hsteps : 3 * (init ++ [b]).length + 2 = 1 + 3 * (init.length + 1) + 0 + 1 := by
        rw [List.length_append, List.length_singleton]
        omega
      have hwritten : (init ++ [b]).reverse = [] ++ b :: init.reverse := by
        simp
      rw [hsteps, hwritten]
      exact ⟨init ++ [b, 0], hpos, .primitive (Store.moveLeft_around (0 :: init) b)
        (.enter (Store.cell_around_ne_zero hd.2) (emit init hd.1 b [0] [] hcells) .done)⟩

end Emit

section Run

variable {d : List UInt8} (hd : 0 ∉ d)
include hd

/-- With two cells more than there are bytes, the program ends on the first cell. -/
theorem runs_finished (config : Config) (heof : config.eof = .zero) (hpos : 0 < size)
    (hroom : d.length + 2 ≤ size) :
    ∃ right h,
      Runs config 0 (.row tree) (.around [] 0 [] hpos (.inUse 0 d [])) (6 * d.length + 5)
        (.finished (.around [] 0 right h (.inUse d.length [] d.reverse))) := by
  have hmove : 1 < size := by omega
  have hcells : (0 :: d).length < size := by
    rw [List.length_cons]
    omega
  obtain ⟨right, h, hemit⟩ := emit_row hd hcells config d.length []
  refine ⟨right, h, ?_⟩
  cases d with
  | nil =>
      exact .primitive (Store.moveRight_around hmove)
        (.primitive (Store.input_around_zero heof) (.skip Store.cell_around hemit))
  | cons b rest =>
      rw [List.mem_cons, not_or] at hd
      have hread : (b :: rest).length = 1 + rest.length := by
        rw [List.length_cons]
        omega
      have hsteps : 6 * (1 + rest.length) + 5 =
          1 + (3 * rest.length + 3) + (3 * (1 + rest.length) + 2) + 1 + 1 := by
        omega
      rw [hread] at hemit ⊢
      rw [hsteps]
      exact .primitive (Store.moveRight_around hmove) (.primitive Store.input_around
        (.enter (Store.cell_around_ne_zero hd.1) (fill hd.2 heof hcells) hemit))

/-- On a shorter tape the program stops on the last cell, with as many bytes read as it
made moves. -/
theorem runs_stopped (config : Config) (hpos : 0 < size) (hroom : size < d.length + 2) :
    ∃ (left : List UInt8) (c : UInt8) (h : left.length < size) (pc : Nat),
      left.length + 1 = size ∧
      Runs config 0 (.row tree) (.around [] 0 [] hpos (.inUse 0 d [])) (3 * (size - 1))
        (.stopped (.fault (.pointerOutOfBounds size config.tapeSize pc)) pc
          (.around left c [] h (.inUse (size - 1) (d.drop (size - 1)) []))) := by
  obtain rfl | hmove := Nat.eq_or_lt_of_le (Nat.succ_le_of_lt hpos)
  · exact ⟨[], 0, hpos, 0, rfl, .primitiveStops (Store.moveRight_around_edge rfl)⟩
  · obtain ⟨k, rfl⟩ := Nat.exists_eq_add_of_le' hmove
    cases d with
    | nil =>
        rw [List.length_nil] at hroom
        omega
    | cons b rest =>
        rw [List.mem_cons, not_or] at hd
        rw [List.length_cons] at hroom
        have hlength : (rest.take k).length = k := by
          rw [List.length_take]
          omega
        have hfront : 0 ∉ rest.take k := fun hmem => hd.2 (List.mem_of_mem_take hmem)
        have hroom' : [(0 : UInt8)].length + (rest.take k).length < k + 2 := by
          rw [hlength, List.length_singleton]
          omega
        have hstart : Filling [0] b 1 (rest.take k ++ rest.drop k)
            (.around [0] b [] hmove (.inUse 1 rest [])) := by
          rw [List.take_append_drop]
          exact ⟨hmove, rfl⟩
        obtain ⟨left, c, h, heq, hfill⟩ := hstart.peel hfront hroom' config
        have hedge : left.length + 1 = k + 2 := by
          simpa [hlength] using congrArg List.length heq
        rw [hlength] at hfill
        have hsteps : 3 * (k + 2 - 1) = 1 + (3 * k + 0) + 1 + 1 := by
          omega
        have hread : k + 2 - 1 = 1 + k := by
          omega
        have hdrop : (b :: rest).drop (1 + k) = rest.drop k := by
          rw [Nat.add_comm, List.drop_succ_cons]
        rw [hsteps, hread, hdrop]
        exact ⟨left, c, h, 3, hedge, .primitive (Store.moveRight_around hmove)
          (.primitive Store.input_around
            (.enterStops (Store.cell_around_ne_zero hd.1) (hfill 0 _ (fill_edge hedge))))⟩

end Run

end ReverseProgram

/-- **The reverse program.**  On a tape that cannot be laid out it breaks down before its
first step.  On every other tape it halts on the first cell, with the input reversed and
read to its end, if the tape has two cells more than the input has bytes; otherwise it
stops at the right edge, with nothing written and a byte read for each cell but the
first. -/
theorem reverse_program {d : List UInt8} (hd : 0 ∉ d) {tape : Setting}
    (htape : 1 ≤ tape.value) :
    (∀ why, tapeBreakdown? tape.value = some why → ∀ patience,
      interpret patience ⟨tape, .zero, none⟩ (.text ">,[>,]<[.<]") (.ofBytes d) =
        (.brokeDown why, .ofBytes d))
      ∧
    (tapeBreakdown? tape.value = none →
      (d.length + 2 ≤ tape.value →
        ∃ state : State, state.pointer = 0 ∧ state.steps = 6 * d.length + 5 ∧
          Concludes (6 * d.length + 6) ⟨tape, .zero, none⟩ ">,[>,]<[.<]" d none state d.reverse
            d.length)
        ∧
      (tape.value < d.length + 2 →
        ∃ state : State, state.pointer = tape.value - 1 ∧ state.steps = 3 * (tape.value - 1) ∧
          Concludes (3 * (tape.value.toNat - 1) + 1) ⟨tape, .zero, none⟩ ">,[>,]<[.<]" d
            (some (.pointerOutOfBounds tape.value tape state.pc)) state []
            (tape.value.toNat - 1))) := by
  obtain ⟨size, hsize⟩ := Int.eq_ofNat_of_zero_le (show 0 ≤ tape.value by omega)
  have hpos : 0 < size := by omega
  refine ⟨fun why hwhy patience => interpret_brokeDown ReverseProgram.tokenize_text hwhy
    patience, fun hfits => ⟨fun hroom => ?_, fun hroom => ?_⟩⟩
  · obtain ⟨right, h, hruns⟩ :=
      ReverseProgram.runs_finished hd ⟨tape, .zero, none⟩ rfl hpos (by omega)
    obtain ⟨state, hpointer, hsteps, hconcludes⟩ := hruns.concludes_finished hsize hfits
      ReverseProgram.tokenize_text rfl List.drop_length.symm
    refine ⟨state, hpointer, ?_, hconcludes⟩
    rw [hsteps]
    push_cast
    rfl
  · obtain ⟨left, c, h, pc, hedge, hruns⟩ :=
      ReverseProgram.runs_stopped hd ⟨tape, .zero, none⟩ hpos (by omega)
    obtain ⟨state, hpointer, hpc, hsteps, hconcludes⟩ := hruns.concludes_stopped hsize hfits
      ReverseProgram.tokenize_text rfl rfl
    refine ⟨state, by omega, by omega, ?_⟩
    rw [hpc, hsize, Int.toNat_natCast]
    exact hconcludes

/-- Three bytes fit on five cells, and do not fit on four. -/
theorem reverse_program_edge :
    (∃ state : State, state.pointer = 0 ∧ state.steps = 23 ∧
      Concludes 24 ⟨.number 5, .zero, none⟩ ">,[>,]<[.<]" [97, 98, 99] none state
        [99, 98, 97] 3) ∧
      ∃ state : State, state.pointer = 3 ∧ state.steps = 9 ∧
        Concludes 10 ⟨.number 4, .zero, none⟩ ">,[>,]<[.<]" [97, 98, 99]
          (some (.pointerOutOfBounds 4 (.number 4) state.pc)) state [] 3 := by
  have hd : (0 : UInt8) ∉ [97, 98, 99] := by decide
  have hfive : 1 ≤ (Setting.number 5).value := by decide
  have hfour : 1 ≤ (Setting.number 4).value := by decide
  exact ⟨((reverse_program hd hfive).2 rfl).1 (by decide),
    ((reverse_program hd hfour).2 rfl).2 (by decide)⟩

end TapeLang
