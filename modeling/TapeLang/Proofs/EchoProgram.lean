import Mathlib.Tactic
import TapeLang.Proofs.FocusedTape
import TapeLang.Proofs.StepBudget

/-!
# The echo program

The text `,[.,]` writes what it reads until it reads a zero.

**Input.** Any bytes, a tape of at least one cell, and each policy for the end of input.
**Algorithm.** `Echoing.peel` follows the rounds of the loop over bytes that are not zero, whatever
comes after them; what the read after the last of them does decides how the run ends.
Where the policy leaves the cell as it is, no run ends: `Phase` lists the places that the
machine passes through, `Phase.step` goes from one to the next, and `run_phase` is the
run so far.
**Results.** `echo_program`: what comes of the text under every policy, with its output, its
steps and the number of bytes that were read.
-/

namespace TapeLang

namespace EchoProgram

/-- The body of the loop: `.,`. -/
def body : Block :=
  .primitive .output (.primitive .input .done)

/-- The tree of the text. -/
def tree : Block :=
  .primitive .input (.loop body .done)

theorem tokenize_text : tokenize ",[.,]" = tree.flatten :=
  rfl

variable {size : Nat} {config : Config} {hpos : 0 < size}

section Rounds

variable {position : Nat} {rest written : List UInt8} {c : UInt8}

/-- A round is about to begin: the last byte that was read is in the cell, and those before
it were written. -/
def Echoing (hpos : 0 < size) (written : List UInt8) (c : UInt8) (position : Nat)
    (unread : List UInt8) (s : Store size Source Sink) : Prop :=
  s = .around [] c [] hpos (.inUse position unread written)

/-- A round writes the current cell and reads the next byte into it. -/
theorem Echoing.round {b : UInt8} {s : Store size Source Sink}
    (hs : Echoing hpos written c position (b :: rest) s) :
    ∃ next, Runs config 2 (.row body) s 2 (.finished next) ∧ next.cell = b ∧
      Echoing hpos (written ++ [c]) b (position + 1) rest next := by
  subst hs
  exact ⟨_, .primitive Store.output_around (.primitive Store.input_around .done),
    Store.cell_around, rfl⟩

/-- The rounds of the loop write the current cell and all but the last of some bytes that
are not zero, and leave the last of them in the cell, whatever happens after them. -/
theorem Echoing.peel {front : List UInt8} {s : Store size Source Sink}
    (hs : Echoing hpos written c position (front ++ rest) s) (hfront : 0 ∉ front)
    (config : Config) :
    ∃ (written' : List UInt8) (c' : UInt8),
      written' ++ [c'] = written ++ c :: front ∧
      ∀ n out,
        Runs config 2 (.rounds body)
          (.around [] c' [] hpos (.inUse (position + front.length) rest written')) n out →
        Runs config 2 (.rounds body) s (3 * front.length + n) out := by
  obtain ⟨written', c', last, heq, rfl, hruns⟩ :=
    Runs.peel_rounds config (written.length + front.length) (Echoing hpos)
      (fun _ _ _ _ _ _ _ hs => hs.round) hfront le_rfl hs
  exact ⟨written', c', heq, hruns⟩

end Rounds

section Ends

variable {w rest : List UInt8} (hw : 0 ∉ w)
include hw

/-- If the read behind the bytes that are not zero leaves a zero, the program halts with
these bytes written. -/
theorem runs_finished {read : Nat} {left : List UInt8}
    (hend : ∀ (pc : Int) (c : UInt8) (position : Nat) (written : List UInt8),
      Primitive.input.effect config pc (.around [] c [] hpos (.inUse position rest written)) =
        .done (.around [] 0 [] hpos (.inUse (position + read) left written))) :
    Runs config 0 (.row tree) (.around [] 0 [] hpos (.inUse 0 (w ++ rest) []))
      (3 * w.length + 2)
      (.finished (.around [] 0 [] hpos (.inUse (w.length + read) left w))) := by
  cases w with
  | nil => exact .primitive (hend 0 0 0 []) (.skip Store.cell_around .done)
  | cons b w =>
      rw [List.mem_cons, not_or] at hw
      have hstart : Echoing hpos [] b 1 (w ++ rest)
          (.around [] b [] hpos (.inUse 1 (w ++ rest) [])) := rfl
      obtain ⟨written, c, heq, hrounds⟩ := hstart.peel hw.2 config
      have hlast : Runs config 2 (.rounds body)
          (.around [] c [] hpos (.inUse (1 + w.length) rest written)) 3
          (.finished
            (.around [] 0 [] hpos (.inUse (1 + w.length + read) left (written ++ [c])))) :=
        .lastRound (.primitive Store.output_around (.primitive (hend _ _ _ _) .done))
          Store.cell_around
      rw [heq, List.nil_append] at hlast
      have hsteps : 3 * (b :: w).length + 2 = 1 + (3 * w.length + 3) + 0 + 1 := by
        rw [List.length_cons]
        omega
      have hread : (b :: w).length + read = 1 + w.length + read := by
        rw [List.length_cons]
        omega
      rw [hsteps, hread]
      exact .primitive Store.input_around
        (.enter (Store.cell_around_ne_zero hw.1) (hrounds 3 _ hlast) .done)

/-- If the end of input is an error, the program stops at it with everything written. -/
theorem runs_stopped (hpos : 0 < size) (config : Config) (heof : config.eof = .error) :
    ∃ (c : UInt8) (pc : Nat),
      Runs config 0 (.row tree) (.around [] 0 [] hpos (.inUse 0 w [])) (3 * w.length)
        (.stopped (.fault (.inputExhausted pc)) pc
          (.around [] c [] hpos (.inUse w.length [] w))) := by
  cases w with
  | nil => exact ⟨0, 0, .primitiveStops (Store.input_around_error heof)⟩
  | cons b w =>
      rw [List.mem_cons, not_or] at hw
      have hstart : Echoing hpos [] b 1 (w ++ [])
          (.around [] b [] hpos (.inUse 1 w [])) := by
        rw [List.append_nil]
        rfl
      obtain ⟨written, c, heq, hrounds⟩ := hstart.peel hw.2 config
      have hlast : Runs config 2 (.rounds body)
          (.around [] c [] hpos (.inUse (1 + w.length) [] written)) 1
          (.stopped (.fault (.inputExhausted 3)) 3
            (.around [] c [] hpos (.inUse (1 + w.length) [] (written ++ [c])))) :=
        .roundStops (.primitive Store.output_around
          (.primitiveStops (Store.input_around_error heof)))
      rw [heq, List.nil_append] at hlast
      have hsteps : 3 * (b :: w).length = 1 + (3 * w.length + 1) + 1 := by
        rw [List.length_cons]
        omega
      have hread : (b :: w).length = 1 + w.length := by
        rw [List.length_cons]
        omega
      rw [hsteps, hread]
      exact ⟨c, 3, .primitive Store.input_around
        (.enterStops (Store.cell_around_ne_zero hw.1) (hrounds 1 _ hlast))⟩

end Ends

section Endless

/-- The first bytes of an input that goes on with its last byte for ever. -/
def prolonged (d : List UInt8) (last : UInt8) (count : Nat) : List UInt8 :=
  (d ++ List.replicate count last).take count

theorem prolonged_succ (d : List UInt8) (last : UInt8) (count : Nat) :
    prolonged d last (count + 1) = prolonged d last count ++ [d.getD count last] := by
  refine List.ext_getElem? fun i => ?_
  simp only [prolonged, List.getElem?_take, List.getElem?_append, List.getElem?_replicate,
    List.length_take, List.length_append, List.length_replicate, List.getD_eq_getElem?_getD]
  grind

/-- Behind the last byte the input goes on with the same byte. -/
theorem getD_succ_of_length_le {d : List UInt8} (hne : d ≠ []) {r : Nat}
    (hr : d.length ≤ r + 1) :
    d.getD (r + 1) (d.getLast hne) = d.getD r (d.getLast hne) := by
  grind

/-- The store of a run that has tried `r + 1` reads and made `w` writes. -/
def heard (d : List UInt8) (hne : d ≠ []) (hpos : 0 < size) (r w : Nat) :
    Store size Source Sink :=
  .around [] (d.getD r (d.getLast hne)) [] hpos
    (.inUse (min (r + 1) d.length) (d.drop (r + 1)) (prolonged d (d.getLast hne) w))

section Effects

variable {d : List UInt8} (hne : d ≠ []) {pc : Int}

/-- The first read. -/
theorem input_start :
    Primitive.input.effect config pc (.around [] 0 [] hpos (.inUse 0 d [])) =
      .done (heard d hne hpos 0 0) := by
  cases d with
  | nil => exact absurd rfl hne
  | cons b rest =>
      rw [Store.input_around, heard, List.length_cons, Nat.min_eq_left (by omega)]
      simp [prolonged]

theorem output_heard (r : Nat) :
    Primitive.output.effect config pc (heard d hne hpos r r) =
      .done (heard d hne hpos r (r + 1)) := by
  rw [heard, Store.output_around, ← prolonged_succ]
  rfl

theorem input_heard (heof : config.eof = .unchanged) (r w : Nat) :
    Primitive.input.effect config pc (heard d hne hpos r w) =
      .done (heard d hne hpos (r + 1) w) := by
  rcases Nat.lt_or_ge (r + 1) d.length with hlt | hge
  · have hnext : d.getD (r + 1) (d.getLast hne) = d[r + 1] := by
      simp [hlt]
    rw [heard, List.drop_eq_getElem_cons hlt, Store.input_around, heard, hnext,
      Nat.min_eq_left hlt.le, Nat.min_eq_left (Nat.succ_le_of_lt hlt)]
  · rw [heard, List.drop_of_length_le hge, Store.input_around_unchanged heof, heard,
      getD_succ_of_length_le hne hge, List.drop_of_length_le (by omega),
      Nat.min_eq_right hge, Nat.min_eq_right (by omega)]

theorem cell_heard (hd : 0 ∉ d) (r w : Nat) : (heard d hne hpos r w).cell ≠ 0 := by
  refine Store.cell_around_ne_zero fun hzero => hd ?_
  rw [hzero]
  grind

end Effects

/-- The program of the text. -/
def program : Program :=
  ⟨tree.flatten.toArray, .ofPairs (tree.pairs 0)⟩

/-- `Phase k pc r w`: after `k` steps the instruction at `pc` is next, `r + 1` reads were
tried and `w` writes were made. -/
inductive Phase : Nat → Nat → Nat → Nat → Prop
  | entering : Phase 1 1 0 0
  | writing (r : Nat) : Phase (3 * r + 2) 2 r r
  | reading (r : Nat) : Phase (3 * r + 3) 3 r (r + 1)
  | testing (r : Nat) : Phase (3 * r + 4) 4 (r + 1) (r + 1)

theorem Phase.counts {k pc r w : Nat} (h : Phase k pc r w) :
    pc < 5 ∧ r + 1 = (k + 2) / 3 ∧ w = k / 3 := by
  cases h <;> omega

variable {d : List UInt8} (hne : d ≠ []) (hd : 0 ∉ d)
variable (hsize : config.tapeSize.value = size) (heof : config.eof = .unchanged)
variable (hbudget : config.maxSteps = none)
include hne hd hsize heof hbudget

/-- One step leads from each phase to the next. -/
theorem Phase.step {k pc r w : Nat} (h : Phase k pc r w) :
    ∃ pc' r' w', Phase (k + 1) pc' r' w' ∧
      ((heard d hne hpos r w).machine pc k).step config program =
        .running ((heard d hne hpos r' w').machine pc' (k + 1 : Nat)) := by
  cases h with
  | entering =>
      have hopen : program.fetch? (1 : Nat) = some .loopOpen := rfl
      have hskip : program.jumps.target? (1 : Nat) = some (4 : Nat) := rfl
      have hstep := (heard d hne hpos 0 0).step_open hbudget (1 : Nat) hopen hskip
      rw [if_neg (cell_heard hne hd 0 0)] at hstep
      exact ⟨2, 0, 0, .writing 0, hstep⟩
  | writing =>
      have houtput : program.fetch? (2 : Nat) = some Primitive.output.instruction := rfl
      have hstep := (heard d hne hpos r r).step_primitive hbudget hsize (3 * r + 2 : Nat) houtput
      rw [output_heard] at hstep
      exact ⟨3, r, r + 1, .reading r, hstep⟩
  | reading =>
      have hinput : program.fetch? (3 : Nat) = some Primitive.input.instruction := rfl
      have hstep := (heard d hne hpos r (r + 1)).step_primitive hbudget hsize (3 * r + 3 : Nat)
        hinput
      rw [input_heard hne heof] at hstep
      exact ⟨4, r + 1, r + 1, .testing r, hstep⟩
  | testing r =>
      have hclose : program.fetch? (4 : Nat) = some .loopClose := rfl
      have hback : program.jumps.target? (4 : Nat) = some ((2 : Nat) - 1 : Int) := rfl
      have hstep := (heard d hne hpos (r + 1) (r + 1)).step_close hbudget (3 * r + 4 : Nat)
        hclose hback
      rw [if_neg (cell_heard hne hd _ _)] at hstep
      exact ⟨2, r + 1, r + 1, .writing (r + 1), hstep⟩

/-- After its first step the machine goes from phase to phase. -/
theorem run_phase (k : Nat) :
    ∃ pc r w, Phase (k + 1) pc r w ∧
      ((Store.around [] 0 [] hpos (.inUse 0 d [])).machine 0 0).run config program (k + 1) =
        .running ((heard d hne hpos r w).machine pc (k + 1 : Nat)) := by
  induction k with
  | zero =>
      have hinput : program.fetch? (0 : Nat) = some Primitive.input.instruction := rfl
      have hstep := (Store.around [] 0 [] hpos (.inUse 0 d [])).step_primitive hbudget hsize 0
        hinput
      rw [input_start hne] at hstep
      exact ⟨1, 0, 0, .entering, Machine.run_succ_of_running hstep 0⟩
  | succ k ih =>
      obtain ⟨pc, r, w, hphase, hrun⟩ := ih
      obtain ⟨pc', r', w', hnext, hstep⟩ := hphase.step hne hd hsize heof hbudget
      refine ⟨pc', r', w', hnext, ?_⟩
      rw [Machine.run_add_of_running hrun]
      exact Machine.run_succ_of_running hstep 0

variable (config hpos) in
/-- The run never ends.  After `k` steps it has written a byte for every three of them, and
its reads have come as far as they can. -/
theorem exists_run (k : Nat) :
    ∃ m : Machine Source Sink,
      ((Store.around [] 0 [] hpos (.inUse 0 d [])).machine 0 0).run config program k =
        .running m ∧
      m.state.pc < program.length ∧ m.state.steps = k ∧
      m.environment = .inUse (min ((k + 2) / 3) d.length) (d.drop (min ((k + 2) / 3) d.length))
        (prolonged d (d.getLast hne) (k / 3)) := by
  cases k with
  | zero =>
      refine ⟨_, rfl, show (0 : Int) < 5 by decide, rfl, ?_⟩
      simp [prolonged, Store.machine, Store.around, Machine.environment, Environment.inUse]
  | succ k =>
      obtain ⟨pc, r, w, hphase, hrun⟩ := run_phase hne hd hsize heof hbudget k
      obtain ⟨hpc, hreads, hwrites⟩ := hphase.counts
      refine ⟨_, hrun, Int.ofNat_lt.2 hpc, rfl, ?_⟩
      rw [← hreads, ← hwrites, ← List.drop_eq_drop_min]
      rfl

end Endless

section Conclusions

variable (hpos) {tape : Setting} (hsize : tape.value = size)
variable (hfits : tapeBreakdown? tape.value = none)
include hpos hsize hfits

/-- A zero byte ends the program under every policy. -/
theorem concludes_zero_byte {w : List UInt8} (hw : 0 ∉ w) (rest : List UInt8)
    (policy : EofPolicy) :
    ∃ state : State, state.steps = 3 * w.length + 2 ∧
      Concludes (3 * w.length + 3) ⟨tape, policy, none⟩ ",[.,]" (w ++ 0 :: rest) none state w
        (w.length + 1) := by
  have hruns : Runs ⟨tape, policy, none⟩ 0 (.row tree)
      (.around [] 0 [] hpos (.inUse 0 (w ++ 0 :: rest) [])) (3 * w.length + 2)
      (.finished (.around [] 0 [] hpos (.inUse (w.length + 1) rest w))) :=
    runs_finished hw fun pc c position written => Store.input_around
  have hunread : rest = (w ++ 0 :: rest).drop (w.length + 1) := by
    simp [List.drop_append]
  obtain ⟨state, -, hsteps, hconcludes⟩ :=
    hruns.concludes_finished hsize hfits tokenize_text rfl hunread
  exact ⟨state, by rw [hsteps]; push_cast; rfl, hconcludes⟩

/-- A zero at the end of input ends the program too. -/
theorem concludes_zero {d : List UInt8} (hd : 0 ∉ d) :
    ∃ state : State, state.steps = 3 * d.length + 2 ∧
      Concludes (3 * d.length + 3) ⟨tape, .zero, none⟩ ",[.,]" d none state d d.length := by
  have hruns : Runs ⟨tape, .zero, none⟩ 0 (.row tree)
      (.around [] 0 [] hpos (.inUse 0 (d ++ []) [])) (3 * d.length + 2)
      (.finished (.around [] 0 [] hpos (.inUse (d.length + 0) [] d))) :=
    runs_finished hd fun pc c position written => Store.input_around_zero rfl
  rw [List.append_nil] at hruns
  obtain ⟨state, -, hsteps, hconcludes⟩ :=
    hruns.concludes_finished hsize hfits tokenize_text rfl List.drop_length.symm
  exact ⟨state, by rw [hsteps]; push_cast; rfl, hconcludes⟩

theorem concludes_error {d : List UInt8} (hd : 0 ∉ d) :
    ∃ state : State, state.steps = 3 * d.length ∧
      Concludes (3 * d.length + 1) ⟨tape, .error, none⟩ ",[.,]" d
        (some (.inputExhausted state.pc)) state d d.length := by
  obtain ⟨c, pc, hruns⟩ := runs_stopped hd hpos ⟨tape, .error, none⟩ rfl
  obtain ⟨state, -, hpc, hsteps, hconcludes⟩ :=
    hruns.concludes_stopped hsize hfits tokenize_text rfl List.drop_length.symm
  rw [← hpc] at hconcludes
  exact ⟨state, by rw [hsteps]; push_cast; rfl, hconcludes⟩

/-- Without input the cell is zero and stays so. -/
theorem concludes_unchanged_nil :
    ∃ state : State, state.steps = 2 ∧
      Concludes 3 ⟨tape, .unchanged, none⟩ ",[.,]" [] none state [] 0 := by
  have hruns : Runs ⟨tape, .unchanged, none⟩ 0 (.row tree)
      (.around [] 0 [] hpos (.inUse 0 [] [])) 2
      (.finished (.around [] 0 [] hpos (.inUse 0 [] []))) :=
    .primitive (Store.input_around_unchanged rfl) (.skip Store.cell_around .done)
  obtain ⟨state, -, hsteps, hconcludes⟩ :=
    hruns.concludes_finished hsize hfits tokenize_text rfl rfl
  exact ⟨state, hsteps, hconcludes⟩

section Unchanged

variable {d : List UInt8} (hne : d ≠ []) (hd : 0 ∉ d)
include hne hd

/-- If the end of input changes nothing, no patience is enough for a run without a
budget. -/
theorem unfinished (patience : Nat) :
    (interpret patience ⟨tape, .unchanged, none⟩ (.text ",[.,]") (.ofBytes d)).1 =
        .unfinished ∧
      runText patience ⟨tape, .unchanged, none⟩ ",[.,]" d = none := by
  obtain ⟨m, hrun, -⟩ :=
    exists_run ⟨tape, .unchanged, none⟩ hpos hne hd hsize rfl rfl patience
  have hattempt : attempt patience ⟨tape, .unchanged, none⟩ (.text ",[.,]") (.ofBytes d) =
      .ok (.running m) := by
    rw [attempt_eq_run hsize hfits tokenize_text hpos]
    exact congrArg Except.ok hrun
  rw [interpret, runText, hattempt]
  exact ⟨rfl, rfl⟩

/-- If the end of input changes nothing, every budget is spent. -/
theorem concludes_limited (limit : Setting) :
    ∃ state : State, state.steps = limit.value.toNat ∧
      Concludes 0 ⟨tape, .unchanged, some limit⟩ ",[.,]" d
        (some (.stepLimitExceeded limit state.pc)) state
        (prolonged d (d.getLast hne) (limit.value.toNat / 3))
        (min ((limit.value.toNat + 2) / 3) d.length) := by
  obtain ⟨m, hrun, hpc, hsteps, henv⟩ :=
    exists_run ⟨tape, .unchanged, none⟩ hpos hne hd hsize rfl rfl limit.value.toNat
  refine ⟨m.state, hsteps, Concludes.of_failed (fun patience _ => ?_) henv⟩
  have hconfig : (⟨tape, .unchanged, some limit⟩ : Config) =
      Config.withBudget ⟨tape, .unchanged, none⟩ (some limit) := rfl
  rw [attempt_eq_run hsize hfits tokenize_text hpos, hconfig]
  refine congrArg Except.ok ((Machine.run_limited_eq rfl).trans ?_)
  rw [Config.withBudget, ← program, hrun, Progress.andThen_running, if_pos hpc]

end Unchanged

end Conclusions

/-- The longest part at the front that has no zero ends before the first zero. -/
theorem takeWhile_append_zero {w : List UInt8} (hw : 0 ∉ w) (rest : List UInt8) :
    (w ++ 0 :: rest).takeWhile (· ≠ 0) = w := by
  have hall : ∀ b ∈ w, decide (b ≠ 0) = true := by
    intro b hb
    exact decide_eq_true fun hzero => hw (hzero ▸ hb)
  rw [List.takeWhile_append_of_pos hall, List.takeWhile_cons_of_neg (by decide),
    List.append_nil]

end EchoProgram

/-- **The echo program.**  On a tape that cannot be laid out it breaks down before its first
step.  On every other tape a zero byte ends it under every policy, with the bytes before
the zero written.  Without a zero byte the policy decides.  A zero at the end of input ends
the program with everything written, and an error stops it with everything written.  If
the end of input changes nothing, the program halts at once on no input; on any other it
never ends, so that it spends every budget, and what it writes is the input and then its
last byte again and again. -/
theorem echo_program (d : List UInt8) {tape : Setting} (htape : 1 ≤ tape.value) :
    (∀ why, tapeBreakdown? tape.value = some why → ∀ policy budget patience,
      interpret patience ⟨tape, policy, budget⟩ (.text ",[.,]") (.ofBytes d) =
        (.brokeDown why, .ofBytes d))
      ∧
    (tapeBreakdown? tape.value = none →
      (0 ∈ d → ∀ policy, ∃ state : State,
        state.steps = 3 * (d.takeWhile (· ≠ 0)).length + 2 ∧
          Concludes (3 * (d.takeWhile (· ≠ 0)).length + 3) ⟨tape, policy, none⟩ ",[.,]" d none
            state (d.takeWhile (· ≠ 0)) ((d.takeWhile (· ≠ 0)).length + 1))
        ∧
      (0 ∉ d →
        (∃ state : State, state.steps = 3 * d.length + 2 ∧
          Concludes (3 * d.length + 3) ⟨tape, .zero, none⟩ ",[.,]" d none state d d.length)
          ∧
        (∃ state : State, state.steps = 3 * d.length ∧
          Concludes (3 * d.length + 1) ⟨tape, .error, none⟩ ",[.,]" d
            (some (.inputExhausted state.pc)) state d d.length)
          ∧
        (d = [] → ∃ state : State, state.steps = 2 ∧
          Concludes 3 ⟨tape, .unchanged, none⟩ ",[.,]" d none state [] 0)
          ∧
        ∀ hne : d ≠ [],
          (∀ patience,
            (interpret patience ⟨tape, .unchanged, none⟩ (.text ",[.,]") (.ofBytes d)).1 =
                .unfinished ∧
              runText patience ⟨tape, .unchanged, none⟩ ",[.,]" d = none)
            ∧
          ∀ limit : Setting, ∃ state : State, state.steps = limit.value.toNat ∧
            Concludes 0 ⟨tape, .unchanged, some limit⟩ ",[.,]" d
              (some (.stepLimitExceeded limit state.pc)) state
              ((d ++ List.replicate (limit.value.toNat / 3) (d.getLast hne)).take
                (limit.value.toNat / 3))
              (min ((limit.value.toNat + 2) / 3) d.length))) := by
  obtain ⟨size, hsize⟩ := Int.eq_ofNat_of_zero_le (show 0 ≤ tape.value by omega)
  have hpos : 0 < size := by omega
  refine ⟨fun why hwhy policy budget patience =>
    interpret_brokeDown EchoProgram.tokenize_text hwhy patience, fun hfits =>
    ⟨fun hmem policy => ?_, fun hd => ⟨?_, ?_, ?_, fun hne => ⟨?_, ?_⟩⟩⟩⟩
  · obtain ⟨w, rest, rfl, hw⟩ := List.eq_append_cons_of_mem hmem
    rw [EchoProgram.takeWhile_append_zero hw]
    exact EchoProgram.concludes_zero_byte hpos hsize hfits hw rest policy
  · exact EchoProgram.concludes_zero hpos hsize hfits hd
  · exact EchoProgram.concludes_error hpos hsize hfits hd
  · rintro rfl
    exact EchoProgram.concludes_unchanged_nil hpos hsize hfits
  · exact EchoProgram.unfinished hpos hsize hfits hne hd
  · exact EchoProgram.concludes_limited hpos hsize hfits hne hd

/-- Two bytes on one cell: with a zero behind them, and with a budget of ten steps that
runs out while the second is written again and again. -/
theorem echo_program_repeats :
    (∃ state : State, state.steps = 8 ∧
      Concludes 9 ⟨.number 1, .unchanged, none⟩ ",[.,]" [97, 98, 0, 99] none state [97, 98] 3) ∧
      ∃ state : State, state.steps = 10 ∧
        Concludes 0 ⟨.number 1, .unchanged, some (.number 10)⟩ ",[.,]" [97, 98]
          (some (.stepLimitExceeded (.number 10) state.pc)) state [97, 98, 98] 2 := by
  have hone : 1 ≤ (Setting.number 1).value := by decide
  exact ⟨((echo_program [97, 98, 0, 99] hone).2 rfl).1 (by decide) .unchanged,
    (((echo_program [97, 98] hone).2 rfl).2 (by decide)).2.2.2 (by decide) |>.2 (.number 10)⟩

end TapeLang
