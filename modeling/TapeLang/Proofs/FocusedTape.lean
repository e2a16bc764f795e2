import Mathlib.Tactic
import TapeLang.Proofs.SharedEnvironment
import TapeLang.Proofs.StructuredLoops

/-!
# The tape around the pointer

A tape of which only finitely many cells were touched is a row of values to the left of
the pointer, the current cell, and a row of values to the right of it.

**Input.** A program text, input in memory, and a configuration without a step budget.
**Results.** `Store.around` is a store with such a tape, and there is one equation for each
primitive operation on it: moving takes the current cell from one row to the other, and
past the end of the right row it finds a zero.  `Runs.peel_rounds` follows a loop that takes
in a byte in each round.  `Concludes` says what comes of a text by way of both entry points,
and `Runs.concludes_finished` and `Runs.concludes_stopped` bring a structured run of a tree
to it.
-/

namespace TapeLang

variable {size : Nat}

namespace Store

/-- The store with given values to the left of the pointer, under it and to the right of
it, and zeros everywhere else. -/
def around (left : List UInt8) (cell : UInt8) (right : List UInt8) (h : left.length < size)
    (env : Environment) : Store size Source Sink :=
  { cells := Vector.ofFn fun a : Fin size => (left ++ cell :: right).getD a 0
    pointer := ⟨left.length, h⟩
    source := env.source
    sink := env.sink }

section Around

variable {left right : List UInt8} {c : UInt8} {h : left.length < size} {env : Environment}

@[simp] theorem cell_around : (around left c right h env).cell = c := by
  simp [cell, around]

theorem cell_around_ne_zero (hc : ¬ 0 = c) : (around left c right h env).cell ≠ 0 := by
  rw [cell_around]
  exact Ne.symm hc

/-- Storing a value changes the current cell and nothing else. -/
theorem put_around (value : UInt8) :
    (around left c right h env).put value = around left value right h env := by
  simp only [put, around, mk.injEq, and_true]
  ext a ha
  rw [Vector.getElem_set, Vector.getElem_ofFn, Vector.getElem_ofFn]
  by_cases heq : left.length = a
  · subst heq
    simp
  · rw [if_neg heq]
    rcases Nat.lt_or_gt_of_ne heq with hlt | hgt
    · obtain ⟨k, rfl⟩ := Nat.exists_eq_add_of_lt hlt
      simp [List.getElem?_append, Nat.add_assoc]
    · simp [List.getElem?_append, hgt]

theorem blank_eq_around (hpos : 0 < size) (env : Environment) :
    blank hpos env.source env.sink = around [] 0 [] hpos env := by
  simp only [blank, around, mk.injEq, and_true]
  refine ⟨?_, rfl⟩
  ext a ha
  rw [Vector.getElem_replicate, Vector.getElem_ofFn]
  cases a <;> simp

end Around

section Effects

theorem length_concat_lt {left : List UInt8} {b : UInt8} (h : left.length + 1 < size) :
    (left ++ [b]).length < size := by
  rwa [List.length_append, List.length_singleton]

theorem length_lt_of_concat (left : List UInt8) (b : UInt8) (h : (left ++ [b]).length < size) :
    left.length < size := by
  rw [List.length_append, List.length_singleton] at h
  omega

/-- A move to the left takes the current cell into the right row. -/
theorem moveLeft_around {config : Config} {pc : Int} (left : List UInt8) (b : UInt8)
    {c : UInt8} {right : List UInt8} {env : Environment} {h : (left ++ [b]).length < size} :
    Primitive.moveLeft.effect config pc (around (left ++ [b]) c right h env) =
      .done (around left b (c :: right) (length_lt_of_concat left b h) env) := by
  rw [Primitive.effect, if_neg (by simp [around]), Effect.done.injEq]
  simp [around]

variable {config : Config} {pc : Int} {left right : List UInt8} {c : UInt8}
variable {h : left.length < size}

/-- A zero behind a row of values is one of the zeros that follow it anyway. -/
theorem getD_concat_zero (row : List UInt8) (a : Nat) :
    (row ++ [0]).getD a 0 = row.getD a 0 := by
  rcases Nat.lt_or_ge a row.length with hlt | hge
  · simp [List.getElem?_append_left, hlt]
  · rw [List.getD_eq_getElem?_getD, List.getElem?_append_right hge,
      List.getD_eq_getElem?_getD, List.getElem?_eq_none hge]
    cases a - row.length <;> simp

/-- A move to the right finds the next value of the right row, or a zero behind it. -/
theorem moveRight_around {env : Environment} (hmove : left.length + 1 < size) :
    Primitive.moveRight.effect config pc (around left c right h env) =
      .done (around (left ++ [c]) (right.headD 0) right.tail (length_concat_lt hmove) env) := by
  have hfits : (around left c right h env).pointer.val + 1 < size := hmove
  rw [Primitive.effect, dif_pos hfits, Effect.done.injEq]
  simp only [around, mk.injEq, and_true, List.length_append, List.length_singleton]
  refine Vector.ext fun a ha => ?_
  rw [Vector.getElem_ofFn, Vector.getElem_ofFn]
  cases right with
  | cons b rest => simp
  | nil => exact (getD_concat_zero (left ++ [c]) a).symm

/-- On the last cell a move to the right fails. -/
theorem moveRight_around_edge {env : Environment} (hedge : left.length + 1 = size) :
    Primitive.moveRight.effect config pc (around left c right h env) =
      .failed (.fault (.pointerOutOfBounds size config.tapeSize pc))
        (around left c right h env) := by
  subst hedge
  have hfits : ¬ (around left c right h env).pointer.val + 1 < left.length + 1 :=
    Nat.lt_irrefl _
  rw [Primitive.effect, dif_neg hfits]
  rfl

variable {position : Nat} {unread written : List UInt8}

theorem output_around :
    Primitive.output.effect config pc
        (around left c right h (.inUse position unread written)) =
      .done (around left c right h (.inUse position unread (written ++ [c]))) := by
  have hcell : (around left c right h (.inUse position unread written)).cell = c :=
    cell_around
  have hbyte : isByte (c.toNat : Int) = true := isByte_toNat c
  simp only [Primitive.effect, hcell, ByteSink.refusal?, Sink.refusal?_of_isByte hbyte]
  simp [around, Environment.inUse, ByteSink.put, Sink.put, byteOf_toNat]

theorem input_around {b : UInt8} :
    Primitive.input.effect config pc
        (around left c right h (.inUse position (b :: unread) written)) =
      .done (around left b right h (.inUse (position + 1) unread written)) := by
  have hput : (around left c right h (.inUse (position + 1) unread written)).put
      (byteOf b.toNat) = around left (byteOf b.toNat) right h _ := put_around _
  conv_rhs => rw [← byteOf_toNat b]
  exact congrArg Effect.done hput

/-- At the end of input the policy decides. -/
theorem input_around_end :
    Primitive.input.effect config pc
        (around left c right h (.inUse position [] written)) =
      match config.eof with
      | .error =>
          .failed (.fault (.inputExhausted pc))
            (around left c right h (.inUse position [] written))
      | .zero => .done (around left 0 right h (.inUse position [] written))
      | .unchanged => .done (around left c right h (.inUse position [] written)) := by
  have hput : (around left c right h (.inUse position [] written)).put 0 =
      around left 0 right h _ := put_around 0
  rw [Primitive.effect]
  cases config.eof with
  | error => rfl
  | zero => exact congrArg Effect.done hput
  | unchanged => rfl

theorem input_around_error (heof : config.eof = .error) :
    Primitive.input.effect config pc (around left c right h (.inUse position [] written)) =
      .failed (.fault (.inputExhausted pc))
        (around left c right h (.inUse position [] written)) := by
  rw [input_around_end, heof]

theorem input_around_zero (heof : config.eof = .zero) :
    Primitive.input.effect config pc (around left c right h (.inUse position [] written)) =
      .done (around left 0 right h (.inUse position [] written)) := by
  rw [input_around_end, heof]

theorem input_around_unchanged (heof : config.eof = .unchanged) :
    Primitive.input.effect config pc (around left c right h (.inUse position [] written)) =
      .done (around left c right h (.inUse position [] written)) := by
  rw [input_around_end, heof]

end Effects

end Store

/-- Rounds that take in one byte each, `room` of them at most.  `At seen c position unread s`
says that a round begins at the store `s` with the byte `c`, after those in `seen`.  The
rounds over the front of the input lead from round to round, whatever happens after them. -/
theorem Runs.peel_rounds (config : Config) {start k : Nat} {body : Block} (room : Nat)
    (At : List UInt8 → UInt8 → Nat → List UInt8 → Store size Source Sink → Prop)
    (hround : ∀ seen c position b rest s, seen.length < room →
      At seen c position (b :: rest) s →
      ∃ next, Runs config start (.row body) s k (.finished next) ∧ next.cell = b ∧
        At (seen ++ [c]) b (position + 1) rest next)
    {front rest : List UInt8} (hfront : 0 ∉ front) {seen : List UInt8} {c : UInt8}
    {position : Nat} {s : Store size Source Sink} (hroom : seen.length + front.length ≤ room)
    (hat : At seen c position (front ++ rest) s) :
    ∃ seen' c' last, seen' ++ [c'] = seen ++ c :: front ∧
      At seen' c' (position + front.length) rest last ∧
      ∀ n out, Runs config start (.rounds body) last n out →
        Runs config start (.rounds body) s ((k + 1) * front.length + n) out := by
  induction front generalizing seen c position s with
  | nil => exact ⟨seen, c, s, rfl, hat, fun n out hruns => by simpa using hruns⟩
  | cons b front ih =>
      rw [List.mem_cons, not_or] at hfront
      rw [List.length_cons] at hroom
      obtain ⟨next, hbody, hcell, hnext⟩ :=
        hround seen c position b (front ++ rest) s (by omega) hat
      obtain ⟨seen', c', last, heq, hlast, hruns⟩ := ih hfront.2 (by simp; omega) hnext
      refine ⟨seen', c', last, by simpa using heq, ?_, fun n out hmore => ?_⟩
      · rwa [List.length_cons, Nat.add_comm front.length, ← Nat.add_assoc]
      · have hsteps : (k + 1) * (b :: front).length + n =
            k + 1 + ((k + 1) * front.length + n) := by
          rw [List.length_cons]
          ring
        rw [hsteps]
        exact .nextRound hbody (by rw [hcell]; exact Ne.symm hfront.1) (hruns n out hmore)

/-- Given enough patience a text comes to an end on bytes in memory, with a fault or
without one.  A report on it and a direct run agree on the output; the report shows the
steps of the state that the run leaves, the environment how many bytes were consumed, and
the record of a fault what it shows of that state. -/
structure Concludes (enough : Nat) (config : Config) (text : String) (d : List UInt8)
    (fault? : Option Fault) (state : State) (output : List UInt8) (consumed : Nat) : Prop where
  leaves : ∀ patience, enough ≤ patience →
    ∃ p, attempt patience config (.text text) (.ofBytes d) = .ok p ∧ p.machine.state = state
  report : ∀ patience, enough ≤ patience →
    interpret patience config (.text text) (.ofBytes d) =
      (.reported
        { verdict := fault?.elim (.ok state) .error
          output := output
          outputSize := output.length
          steps := state.steps },
        .inUse consumed (d.drop consumed) output)
  direct : ∀ patience, enough ≤ patience →
    runText patience config text d =
      some (fault?.elim (.ok output) fun f => .error
        { why := .fault f
          record? := some (state.snapshot config.tapeSize State.defaultRadius) })

section Concludes

variable {enough : Nat} {config : Config} {text : String} {d : List UInt8}
variable {m : Machine Source Sink} {output : List UInt8} {consumed : Nat}

theorem Concludes.of_halted
    (h : ∀ patience, enough ≤ patience →
      attempt patience config (.text text) (.ofBytes d) = .ok (.halted m))
    (henv : m.environment = .inUse consumed (d.drop consumed) output) :
    Concludes enough config text d none m.state output consumed where
  leaves patience hpatience := ⟨_, h patience hpatience, rfl⟩
  report patience hpatience := by
    rw [interpret, h patience hpatience, Attempt.ending, Ending.ofProgress, henv]
    rfl
  direct patience hpatience := by
    rw [runText, h patience hpatience, Attempt.output?, henv]
    rfl

theorem Concludes.of_failed {f : Fault}
    (h : ∀ patience, enough ≤ patience →
      attempt patience config (.text text) (.ofBytes d) = .ok (.failed (.fault f) m))
    (henv : m.environment = .inUse consumed (d.drop consumed) output) :
    Concludes enough config text d (some f) m.state output consumed where
  leaves patience hpatience := ⟨_, h patience hpatience, rfl⟩
  report patience hpatience := by
    rw [interpret, h patience hpatience, Attempt.ending, Ending.ofProgress, henv]
    rfl
  direct patience hpatience := by
    rw [runText, h patience hpatience, Attempt.output?]
    rfl

end Concludes

section Text

variable {config : Config} {text : String} {tree : Block} {d : List UInt8}

theorem Program.load_flatten (htext : tokenize text = tree.flatten) :
    Program.load text = .ok ⟨tree.flatten.toArray, .ofPairs (tree.pairs 0)⟩ := by
  rw [Program.load, htext, Block.resolve_flatten]
  rfl

theorem attempt_text (htext : tokenize text = tree.flatten) (patience : Nat) :
    attempt patience config (.text text) (.ofBytes d) =
      .ok (execute patience config ⟨tree.flatten.toArray, .ofPairs (tree.pairs 0)⟩
        (.ofBytes d) .newBuffer) := by
  rw [attempt, Script.load, Program.load_flatten htext]
  rfl

/-- A text breaks down at once on a tape that cannot be laid out. -/
theorem interpret_brokeDown (htext : tokenize text = tree.flatten) {why : Breakdown}
    (hwhy : tapeBreakdown? config.tapeSize.value = some why) (patience : Nat) :
    interpret patience config (.text text) (.ofBytes d) = (.brokeDown why, .ofBytes d) := by
  rw [interpret, attempt_text htext, execute, Machine.boot, hwhy]
  rfl

section Runs

variable (hsize : config.tapeSize.value = size)
variable (hfits : tapeBreakdown? config.tapeSize.value = none)
variable (htext : tokenize text = tree.flatten)
include hsize hfits htext

/-- What comes of a text is a run of its program from a blank tape. -/
theorem attempt_eq_run (hpos : 0 < size) (patience : Nat) :
    attempt patience config (.text text) (.ofBytes d) =
      .ok (((Store.around [] 0 [] hpos (.inUse 0 d [])).machine 0 0).run config
        ⟨tree.flatten.toArray, .ofPairs (tree.pairs 0)⟩ (config.fuel patience)) := by
  have hboot := Store.boot_eq hsize hpos (hsize ▸ hfits) (Source.ofBytes d) Sink.newBuffer
  have hblank : Store.blank hpos (Source.ofBytes d) Sink.newBuffer =
      .around [] 0 [] hpos (.inUse 0 d []) := Store.blank_eq_around hpos (.ofBytes d)
  rw [attempt_text htext, execute_of_boot hboot, hblank]

variable (hbudget : config.maxSteps = none)
include hbudget

variable {hpos : 0 < size} {n : Nat}

/-- With more patience than it has steps, a structured run of the tree of a text is what
comes of the text. -/
theorem Runs.attempt {out : Outcome size Source Sink}
    (h : Runs config 0 (.row tree) (.around [] 0 [] hpos (.inUse 0 d [])) n out)
    {patience : Nat} (hpatience : n + 1 ≤ patience) :
    attempt patience config (.text text) (.ofBytes d) = .ok (out.ending tree.size n) := by
  have hplaced := Block.placed_of_resolve (Block.resolve_flatten tree)
  have hending := h.run_ending hbudget hsize hplaced (by simp [Program.length])
  have hended : (out.ending tree.size n).isRunning = false := by
    cases out <;> rfl
  have hfuel : config.fuel patience = patience := by
    rw [Config.fuel, hbudget]
  rw [attempt_eq_run hsize hfits htext hpos, hfuel, ← hending]
  exact congrArg Except.ok (Machine.run_eq_of_ended hpatience (by rw [hending, hended]))

variable {consumed : Nat} {left right unread output : List UInt8}
variable {c : UInt8} {hleft : left.length < size} (hunread : unread = d.drop consumed)
include hunread

/-- A structured run to the end. -/
theorem Runs.concludes_finished
    (h : Runs config 0 (.row tree) (.around [] 0 [] hpos (.inUse 0 d [])) n
      (.finished (.around left c right hleft (.inUse consumed unread output)))) :
    ∃ state : State, state.pointer = left.length ∧ state.steps = n ∧
      Concludes (n + 1) config text d none state output consumed := by
  subst hunread
  have hconcludes := Concludes.of_halted
    (fun patience hpatience => h.attempt hsize hfits htext hbudget hpatience) rfl
  exact ⟨_, rfl, rfl, hconcludes⟩

/-- A structured run that a fault stops. -/
theorem Runs.concludes_stopped {f : Fault} {pc : Nat}
    (h : Runs config 0 (.row tree) (.around [] 0 [] hpos (.inUse 0 d [])) n
      (.stopped (.fault f) pc (.around left c right hleft (.inUse consumed unread output)))) :
    ∃ state : State, state.pointer = left.length ∧ state.pc = pc ∧ state.steps = n ∧
      Concludes (n + 1) config text d (some f) state output consumed := by
  subst hunread
  have hconcludes := Concludes.of_failed
    (fun patience hpatience => h.attempt hsize hfits htext hbudget hpatience) rfl
  exact ⟨_, rfl, rfl, rfl, hconcludes⟩

end Runs

end Text

end TapeLang
