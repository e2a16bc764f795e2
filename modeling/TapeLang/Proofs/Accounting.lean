import Mathlib.Tactic
import Mathlib.Data.Int.ModEq
import TapeLang.Proofs.EntryPoints
import TapeLang.Proofs.LoopControl

/-!
# What a run has done so far

The trace of a run lists the instructions that it has completed, each with the
machine before it and the machine after it.

**Input.** A configuration and a program, none of them checked, bytes in memory and
an empty buffer.
**Algorithm.** Every instruction makes a request that fits it, which
`State.instructionRequest_fits` shows instruction by instruction.  The answers to such
requests are all that completing an instruction can do: `Machine.completes_of_step`.
**Results.** Each instruction moves the pointer, the sum of the cells, the input and
the output by its own amount, so along a trace they are sums over it:
`Machine.Traced.accounts`.  `execute_accounting` states this of every machine that a
run reaches and of the one in which it ends.
-/

namespace TapeLang

universe u v

variable {σ : Type u} {τ : Type v}

/-- An instruction that was completed, between two machines. -/
structure Completion (σ : Type u) (τ : Type v) where
  instruction : Instruction
  before : Machine σ τ
  after : Machine σ τ

/-- The completions of a given instruction in a trace, in order. -/
def performing (x : Instruction) (t : List (Completion σ τ)) : List (Completion σ τ) :=
  t.filter fun e => e.instruction = x

/-- The trace of a run on a fresh tape, and the machine that it has reached. -/
inductive Machine.Traced [ByteSource σ] [ByteSink τ] (config : Config) (program : Program)
    (source : σ) (sink : τ) : List (Completion σ τ) → Machine σ τ → Prop
  | start {m : Machine σ τ}
      (hboot : Machine.boot config source sink = .running m) :
      Machine.Traced config program source sink [] m
  | step {t : List (Completion σ τ)} {m next : Machine σ τ} {x : Instruction}
      (h : Machine.Traced config program source sink t m)
      (hfetch : program.fetch? m.state.pc = some x)
      (hstep : m.step config program = .running next) :
      Machine.Traced config program source sink (t ++ [⟨x, m, next⟩]) next

/-- By how much an instruction moves the pointer. -/
def Instruction.shift (x : Instruction) : Int :=
  (if x = .moveRight then 1 else 0) - if x = .moveLeft then 1 else 0

/-- How much an instruction adds to the current cell. -/
def Instruction.gain (x : Instruction) : Int :=
  (if x = .increment then 1 else 0) - if x = .decrement then 1 else 0

/-- What an instruction that asks nothing of its surroundings does to a state: it moves
the pointer by its shift and adds its gain to the current cell. -/
structure State.Moves (s : State) (x : Instruction) (next : State) : Prop where
  silent : x ≠ .input ∧ x ≠ .output
  pointer : next.pointer = s.pointer + x.shift
  pointer_nonneg : 0 ≤ s.pointer → 0 ≤ next.pointer
  cells : next.cells = s.cells ∧ x.gain = 0 ∨
    ∃ a, s.address? = some a ∧
      next.cells = (s.storeAt a (byteOf ((s.valueAt a).toNat + x.gain))).cells

/-- What a request says of the instruction that makes it. -/
def Request.Fits (s : State) (x : Instruction) : Request → Prop
  | .move next => s.Moves x next
  | .write value => x = .output ∧ s.cell? = some value
  | .read => x = .input
  | _ => True

/-- All that completing an instruction can do to a machine. -/
inductive Machine.Completes [ByteSource σ] [ByteSink τ] (m : Machine σ τ) :
    Instruction → Machine σ τ → Prop
  | move {x : Instruction} {s : State}
      (hmoves : m.state.Moves x s) :
      m.Completes x { m with state := s }
  | write {value : UInt8}
      (hcell : m.state.cell? = some value) :
      m.Completes .output
        { m with state := m.state.goOn m.state.pc, sink := ByteSink.put m.sink value.toNat }
  | read {answer : Option Int} {rest : σ} {a : Nat} {value : UInt8}
      (hread : ByteSource.read m.source = (answer, rest))
      (haddress : m.state.address? = some a)
      (hvalue : ∀ n ∈ answer, value = byteOf n) :
      m.Completes .input
        { m with state := (m.state.storeAt a value).goOn m.state.pc, source := rest }
  | pass {rest : σ}
      (hread : ByteSource.read m.source = (none, rest)) :
      m.Completes .input { m with state := m.state.goOn m.state.pc, source := rest }

namespace State

section Fits

variable {s : State} {x : Instruction}

theorem onTape_fits {ask : Nat → Request}
    (h : ∀ a, s.address? = some a → (ask a).Fits s x) :
    (s.onTape ask).Fits s x := by
  rw [onTape]
  cases haddress : s.address? with
  | none => trivial
  | some a => exact h a haddress

theorem moves_goOn (pc : Int) (hx : x = .loopOpen ∨ x = .loopClose) :
    s.Moves x (s.goOn pc) := by
  rcases hx with rfl | rfl <;>
    exact ⟨by decide, by simp [Instruction.shift], id, Or.inl ⟨rfl, rfl⟩⟩

theorem addRequest_fits (hx : x = .increment ∨ x = .decrement) :
    (s.addRequest x.gain).Fits s x := by
  refine onTape_fits fun a haddress => ?_
  rcases hx with rfl | rfl <;>
    exact ⟨by decide, by simp [Instruction.shift], id, Or.inr ⟨a, haddress, rfl⟩⟩

theorem bracketRequest_fits (jumps : JumpTable) (test : UInt8 → Bool)
    (hx : x = .loopOpen ∨ x = .loopClose) :
    (s.bracketRequest jumps test).Fits s x := by
  refine onTape_fits fun a _ => ?_
  split
  · cases jumps.target? s.pc with
    | none => trivial
    | some target => exact moves_goOn target hx
  · exact moves_goOn s.pc hx

/-- Every instruction makes a request that fits it. -/
theorem instructionRequest_fits (s : State) (config : Config) (jumps : JumpTable)
    (x : Instruction) : (s.instructionRequest config jumps x).Fits s x := by
  cases x with
  | moveRight =>
      rw [instructionRequest]
      split
      · trivial
      · refine ⟨by decide, rfl, fun hs => ?_, Or.inl ⟨rfl, rfl⟩⟩
        rw [pointer_goOn, pointer_pointTo]
        omega
  | moveLeft =>
      rw [instructionRequest]
      split
      · trivial
      · refine ⟨by decide, rfl, fun hs => ?_, Or.inl ⟨rfl, rfl⟩⟩
        rw [pointer_goOn, pointer_pointTo]
        omega
  | increment => exact addRequest_fits (Or.inl rfl)
  | decrement => exact addRequest_fits (Or.inr rfl)
  | output =>
      refine onTape_fits fun a haddress => ⟨rfl, ?_⟩
      rw [cell?, haddress, Option.map_some]
  | input => rfl
  | loopOpen =>
      rw [instructionRequest]
      exact bracketRequest_fits jumps _ (Or.inl rfl)
  | loopClose =>
      rw [instructionRequest]
      exact bracketRequest_fits jumps _ (Or.inr rfl)

end Fits

end State

namespace Machine

section Completes

variable [ByteSource σ] [ByteSink τ] {config : Config} {program : Program}
variable {m next : Machine σ τ} {x : Instruction}

theorem completes_of_read (h : m.read config = .running next) : m.Completes .input next := by
  rw [Machine.read] at h
  split at h
  · next value rest hread =>
      rw [store] at h
      split at h
      · cases h
      · next a haddress =>
          cases h
          exact .read hread haddress fun n hn => by rw [Option.some.inj hn]
  · next rest hread =>
      cases heof : config.eof with
      | error =>
          rw [heof] at h
          cases h
      | zero =>
          rw [heof, endOfInput, store] at h
          split at h
          · cases h
          · next a haddress =>
              cases h
              exact .read hread haddress fun n hn => by cases hn
      | unchanged =>
          rw [heof] at h
          cases h
          exact .pass hread

/-- An answer to a request that fits an instruction completes it, if the machine goes
on. -/
theorem completes_of_serve {r : Request} (hfits : r.Fits m.state x)
    (h : r.serve config m = .running next) :
    m.Completes x next := by
  cases r with
  | halt => cases h
  | stop why => cases h
  | move s =>
      cases h
      exact .move hfits
  | write value =>
      obtain ⟨rfl, hcell⟩ := hfits
      rw [Request.serve] at h
      split at h
      · cases h
      · cases h
        exact .write hcell
  | read =>
      obtain rfl : x = .input := hfits
      exact completes_of_read h

/-- A step that goes on completes the instruction that was next. -/
theorem completes_of_step (hfetch : program.fetch? m.state.pc = some x)
    (h : m.step config program = .running next) :
    m.Completes x next := by
  obtain ⟨y, hy, hdispatch⟩ := dispatch_of_step h
  obtain rfl := Option.some.inj (hfetch.symm.trans hy)
  rw [dispatch_eq_serve] at hdispatch
  exact completes_of_serve (m.state.instructionRequest_fits config program.jumps x) hdispatch

end Completes

section Traces

variable [ByteSource σ] [ByteSink τ] {config : Config} {program : Program}
variable {source : σ} {sink : τ} {m : Machine σ τ} {t : List (Completion σ τ)}

/-- A run has reached the machine after its trace. -/
theorem Traced.reached (h : Traced config program source sink t m) :
    Reached config program source sink t.length m := by
  induction h with
  | start hboot => exact ⟨_, hboot, rfl⟩
  | step h hfetch hstep ih =>
      obtain ⟨start, hboot, hrun⟩ := ih
      refine ⟨start, hboot, ?_⟩
      rw [List.length_append, List.length_singleton, run_add_of_running hrun,
        run_succ_of_running hstep, run_zero]

/-- Every machine that a run reaches has a trace, as long as the run. -/
theorem Reached.exists_traced {k : Nat} (h : Reached config program source sink k m) :
    ∃ t, Traced config program source sink t m ∧ t.length = k := by
  have htraced : ∃ t, Traced config program source sink t m := by
    refine h.induction (P := fun m => ∃ t, Traced config program source sink t m) ?_ ?_
    · intro start hboot
      exact ⟨[], .start hboot⟩
    · rintro n before next - ⟨t, ht⟩ hstep
      obtain ⟨x, hfetch, -⟩ := dispatch_of_step hstep
      exact ⟨_, ht.step hfetch hstep⟩
  obtain ⟨t, ht⟩ := htraced
  refine ⟨t, ht, ?_⟩
  have hlength := ht.reached.steps_eq
  rw [h.steps_eq] at hlength
  omega

end Traces

end Machine

section Performing

variable (x : Instruction) (t : List (Completion σ τ)) (e : Completion σ τ)

theorem performing_snoc :
    performing x (t ++ [e]) = performing x t ++ if e.instruction = x then [e] else [] := by
  rw [performing, performing, List.filter_append]
  split
  · next h => simp [h]
  · next h => simp [h]

theorem length_performing_snoc :
    ((performing x (t ++ [e])).length : Int) =
      (performing x t).length + if e.instruction = x then 1 else 0 := by
  rw [performing_snoc, List.length_append]
  split <;> simp

end Performing

namespace State

section Store

variable {s : State} {a : Nat}

/-- The sum of the cells of the tape. -/
def total (s : State) : Int :=
  (s.cells.toList.map fun value => (value.toNat : Int)).sum

@[simp] theorem total_goOn (s : State) (pc : Int) : (s.goOn pc).total = s.total :=
  rfl

theorem total_congr {t : State} (h : t.cells = s.cells) : t.total = s.total := by
  rw [total, total, h]

theorem valueAt_congr {t : State} (h : t.cells = s.cells) (a : Nat) :
    t.valueAt a = s.valueAt a := by
  rw [valueAt, valueAt, h]

/-- A pointer that is not negative is the address of the current cell. -/
theorem pointer_eq_of_address? (hpointer : 0 ≤ s.pointer) (h : s.address? = some a) :
    s.pointer = a := by
  obtain ⟨hlt, hindex⟩ := place?_eq_some_iff.1 h
  omega

theorem cell?_storeAt (h : s.address? = some a) (value : UInt8) :
    (s.storeAt a value).cell? = some value := by
  have hlt : a < s.cells.size := lt_of_place? h
  have haddress : (s.storeAt a value).address? = some a := by
    rw [address?, size_storeAt]
    exact h
  rw [cell?, haddress, Option.map_some, valueAt_storeAt_self hlt]

theorem total_storeAt (h : s.address? = some a) (value : UInt8) :
    (s.storeAt a value).total = s.total - (s.valueAt a).toNat + value.toNat := by
  have hlt : a < s.cells.size := lt_of_place? h
  have hvalue : s.valueAt a = s.cells[a] := by simp [valueAt, hlt]
  rw [total, total, storeAt, Array.toList_setIfInBounds, List.map_set, List.sum_set', hvalue]
  rw [dif_pos (by simpa using hlt)]
  simp only [List.getElem_map, Array.getElem_toList]
  ring

/-- Adding to the current cell adds to the sum, modulo 256. -/
theorem total_add (h : s.address? = some a) (value : Int) :
    (s.storeAt a (byteOf ((s.valueAt a).toNat + value))).total ≡ s.total + value
      [ZMOD 256] := by
  have hbyte : ((byteOf ((s.valueAt a).toNat + value)).toNat : Int) ≡
      (s.valueAt a).toNat + value [ZMOD 256] := by
    rw [toNat_byteOf]
    exact Int.mod_modEq _ _
  rw [total_storeAt h]
  calc s.total - (s.valueAt a).toNat + (byteOf ((s.valueAt a).toNat + value)).toNat
      ≡ s.total - (s.valueAt a).toNat + ((s.valueAt a).toNat + value) [ZMOD 256] :=
        hbyte.add_left _
    _ = s.total + value := by ring

end Store

end State

namespace Machine

section Amounts

variable [ByteSource σ] [ByteSink τ] {m next : Machine σ τ} {x : Instruction}
variable (h : m.Completes x next)
include h

theorem Completes.pointer_eq : next.state.pointer = m.state.pointer + x.shift := by
  cases h with
  | move hmoves => exact hmoves.pointer
  | _ => simp [Instruction.shift]

theorem Completes.pointer_nonneg (hm : 0 ≤ m.state.pointer) : 0 ≤ next.state.pointer := by
  cases h with
  | move hmoves => exact hmoves.pointer_nonneg hm
  | _ => exact hm

/-- No instruction changes a cell behind the pointer. -/
theorem Completes.valueAt_eq (hm : 0 ≤ m.state.pointer) {a : Nat} (ha : m.state.pointer < a) :
    next.state.valueAt a = m.state.valueAt a := by
  have hstore : ∀ {b : Nat}, m.state.address? = some b → ∀ value,
      (m.state.storeAt b value).valueAt a = m.state.valueAt a := by
    intro b hb value
    have hpointer := State.pointer_eq_of_address? hm hb
    exact State.valueAt_storeAt_of_ne (by omega) value
  cases h with
  | move hmoves =>
      rcases hmoves.cells with ⟨hcells, -⟩ | ⟨b, hb, hcells⟩
      · exact State.valueAt_congr hcells a
      · exact (State.valueAt_congr hcells a).trans (hstore hb _)
  | read hread haddress hvalue => exact hstore haddress _
  | _ => rfl

/-- An instruction that does not read changes the sum of the cells by what it adds. -/
theorem Completes.total_modEq (hx : x ≠ .input) :
    next.state.total ≡ m.state.total + x.gain [ZMOD 256] := by
  cases h with
  | move hmoves =>
      rcases hmoves.cells with ⟨hcells, hgain⟩ | ⟨a, haddress, hcells⟩
      · rw [State.total_congr hcells, hgain, add_zero]
      · rw [State.total_congr hcells]
        exact State.total_add haddress x.gain
  | write hcell => simp [Instruction.gain]
  | read hread haddress hvalue => exact absurd rfl hx
  | pass hread => exact absurd rfl hx

end Amounts

section Channels

variable {m next : Machine Source Sink} {x : Instruction} (h : m.Completes x next)
include h

/-- An output instruction writes the current cell, and no other instruction writes. -/
theorem Completes.exists_written {written : List UInt8}
    (hsink : m.sink = Outlet.buffer.sink written) :
    ∃ more : List UInt8, next.sink = Outlet.buffer.sink (written ++ more) ∧
      more.map some = if x = .output then [m.state.cell?] else [] := by
  cases h with
  | move hmoves => exact ⟨[], by simpa using hsink, by simp [hmoves.silent.2]⟩
  | @write value hcell =>
      refine ⟨[value], ?_, by simp [hcell]⟩
      rw [← Outlet.put_sink, ← hsink]
  | read hread haddress hvalue => exact ⟨[], by simpa using hsink, by simp⟩
  | pass hread => exact ⟨[], by simpa using hsink, by simp⟩

/-- An input instruction reads once, and no other instruction reads. -/
theorem Completes.source_eq {d : List UInt8} {reads : Nat}
    (hsource : m.source = Inlet.memory.source d reads) :
    next.source = Inlet.memory.source d (reads + if x = .input then 1 else 0) := by
  have hrest : ∀ {answer rest}, ByteSource.read m.source = (answer, rest) →
      rest = Inlet.memory.source d (reads + 1) := by
    intro answer rest hread
    rw [hsource, Inlet.read_source] at hread
    exact (congrArg Prod.snd hread).symm
  cases h with
  | move hmoves => simpa [hmoves.silent.1] using hsource
  | write hcell => simpa using hsource
  | read hread haddress hvalue => exact hrest hread
  | pass hread => exact hrest hread

/-- As long as there are bytes, an input instruction stores the next of them. -/
theorem Completes.cell?_of_input (hx : x = .input) {d : List UInt8} {reads : Nat}
    (hsource : m.source = Inlet.memory.source d reads) {b : UInt8} (hb : d[reads]? = some b) :
    next.state.cell? = some b := by
  have hanswer : (ByteSource.read m.source).1 = some (b.toNat : Int) := by
    rw [hsource, Inlet.read_source, hb]
    rfl
  cases h with
  | move hmoves => exact absurd hx hmoves.silent.1
  | write hcell => cases hx
  | read hread haddress hvalue =>
      rw [hread] at hanswer
      obtain rfl := hvalue _ hanswer
      rw [byteOf_toNat]
      exact State.cell?_storeAt haddress b
  | pass hread =>
      rw [hread] at hanswer
      cases hanswer

end Channels

/-- What a trace over the bytes `d` says of the machine after it. -/
structure Accounts (d : List UInt8) (t : List (Completion Source Sink))
    (m : Machine Source Sink) : Prop where
  pointer : m.state.pointer =
    (performing .moveRight t).length - (performing .moveLeft t).length
  pointer_nonneg : 0 ≤ m.state.pointer
  /-- One byte for each output instruction, from the cell that was current. -/
  output : ∃ written, m.sink = Outlet.buffer.sink written ∧
    written.map some = (performing .output t).map fun e => e.before.state.cell?
  /-- One read for each input instruction. -/
  input : m.source = Inlet.memory.source d (performing .input t).length
  stored : ∀ (j : Nat) (e : Completion Source Sink) (b : UInt8),
    (performing .input t)[j]? = some e → d[j]? = some b → e.after.state.cell? = some b
  /-- No cell is changed behind the places that the pointer has been in. -/
  untouched : ∀ a : Nat, (∀ e ∈ t, e.before.state.pointer < a) → m.state.pointer < a →
    m.state.valueAt a = 0
  total : performing .input t = [] → m.state.total ≡
    (performing .increment t).length - (performing .decrement t).length [ZMOD 256]

section Run

variable {config : Config} {program : Program} {d : List UInt8}
variable {t : List (Completion Source Sink)} {m next : Machine Source Sink}

theorem accounts_of_boot
    (h : boot config (Source.ofBytes d) Sink.newBuffer = .running m) : Accounts d [] m := by
  obtain ⟨size, rfl⟩ : ∃ size, m = ⟨State.blank size, Source.ofBytes d, Sink.newBuffer⟩ := by
    rw [boot] at h
    split at h
    · cases h
    · exact ⟨_, (Progress.running.inj h).symm⟩
  exact
    { pointer := rfl
      pointer_nonneg := le_rfl
      output := ⟨[], (Outlet.sink_nil .buffer).symm, rfl⟩
      input := (Inlet.source_zero .memory d).symm
      stored := fun j e b he => by simp [performing] at he
      untouched := fun a _ _ => by simp [State.valueAt, State.blank, Array.getD]
      total := fun _ => by simp [State.total, State.blank, performing] }

/-- Completing one more instruction keeps the accounts. -/
theorem Accounts.snoc (hm : Accounts d t m) {x : Instruction} (h : m.Completes x next) :
    Accounts d (t ++ [⟨x, m, next⟩]) next := by
  constructor
  case pointer =>
    rw [length_performing_snoc, length_performing_snoc, h.pointer_eq, hm.pointer,
      Instruction.shift]
    ring
  case pointer_nonneg => exact h.pointer_nonneg hm.pointer_nonneg
  case output =>
    obtain ⟨written, hsink, hwritten⟩ := hm.output
    obtain ⟨more, hnext, hmore⟩ := h.exists_written hsink
    refine ⟨written ++ more, hnext, ?_⟩
    rw [performing_snoc, List.map_append, List.map_append, hwritten, hmore]
    split <;> rfl
  case input =>
    rw [h.source_eq hm.input, performing_snoc, List.length_append]
    split <;> rfl
  case stored =>
    intro j e b he hb
    rw [performing_snoc] at he
    rcases Nat.lt_or_ge j (performing .input t).length with hlt | hge
    · rw [List.getElem?_append_left hlt] at he
      exact hm.stored j e b he hb
    · rw [List.getElem?_append_right hge] at he
      split at he
      · next hx =>
          obtain ⟨hj, rfl⟩ := List.getElem?_eq_some_iff.1 he
          obtain rfl : j = (performing .input t).length := by
            simp only [List.length_singleton] at hj
            omega
          simpa using h.cell?_of_input hx hm.input hb
      · simp at he
  case untouched =>
    intro a hbefore hnext
    have hpointer : m.state.pointer < a := hbefore ⟨x, m, next⟩ (by simp)
    rw [h.valueAt_eq hm.pointer_nonneg hpointer]
    exact hm.untouched a (fun e he => hbefore e (List.mem_append_left _ he)) hpointer
  case total =>
    intro hnone
    rw [performing_snoc, List.append_eq_nil_iff] at hnone
    have hx : x ≠ .input := by
      intro hx
      simp [hx] at hnone
    rw [length_performing_snoc, length_performing_snoc]
    calc next.state.total
        ≡ m.state.total + x.gain [ZMOD 256] := h.total_modEq hx
      _ ≡ (performing .increment t).length - (performing .decrement t).length + x.gain
            [ZMOD 256] := (hm.total hnone.1).add_right _
      _ = _ := by
          rw [Instruction.gain]
          ring

/-- A trace accounts for the machine after it. -/
theorem Traced.accounts
    (h : Traced config program (Source.ofBytes d) Sink.newBuffer t m) : Accounts d t m := by
  induction h with
  | start hboot => exact accounts_of_boot hboot
  | step h hfetch hstep ih => exact ih.snoc (completes_of_step hfetch hstep)

end Run

end Machine

section Execute

/-- A run that came to a verdict has a trace. -/
theorem exists_traced_of_verdict? {patience : Nat} {config : Config} {program : Program}
    {d : List UInt8} {p : Progress Source Sink} {verdict : Except Fault State}
    (hrun : execute patience config program (Source.ofBytes d) Sink.newBuffer = p)
    (hverdict : p.verdict? = some verdict) :
    ∃ t, Machine.Traced config program (Source.ofBytes d) Sink.newBuffer t p.machine := by
  have hreached : ∃ k, Machine.Reached config program (Source.ofBytes d) Sink.newBuffer k
      p.machine := by
    cases p with
    | running m => cases hverdict
    | halted m => exact exists_reached_of_execute_halted hrun
    | failed why m =>
        cases why with
        | breakdown b => cases hverdict
        | fault f => exact exists_reached_of_execute_fault ⟨d, rfl⟩ hrun
  obtain ⟨k, hk⟩ := hreached
  obtain ⟨t, ht, -⟩ := hk.exists_traced
  exact ⟨t, ht⟩

/-- **Execution accounting.**  Every machine that a run on bytes in memory and an empty
buffer reaches has a trace, as long as the run, and so has the machine in which the run
halts or is stopped by a fault.  The trace accounts for the machine after it.  The
counter is the length of the trace, and the pointer is as far from its first place as
there were more moves to the right than to the left.  The buffer holds one byte for each
output instruction, from the cell that was current then.  As many bytes were read as
there were input instructions, or all of them, and each was stored by its own input
instruction.  The cells behind all places of the pointer are zero.  If nothing was read,
the sum of the cells is, modulo 256, the number of increments without that of
decrements. -/
theorem execute_accounting (config : Config) (program : Program) (d : List UInt8) :
    (∀ k m, Machine.Reached config program (Source.ofBytes d) Sink.newBuffer k m ↔
      ∃ t, Machine.Traced config program (Source.ofBytes d) Sink.newBuffer t m ∧
        t.length = k)
      ∧
    (∀ patience m,
      execute patience config program (Source.ofBytes d) Sink.newBuffer = .halted m →
      ∃ t, Machine.Traced config program (Source.ofBytes d) Sink.newBuffer t m)
      ∧
    (∀ patience f m,
      execute patience config program (Source.ofBytes d) Sink.newBuffer =
        .failed (.fault f) m →
      ∃ t, Machine.Traced config program (Source.ofBytes d) Sink.newBuffer t m)
      ∧
    (∀ t m, Machine.Traced config program (Source.ofBytes d) Sink.newBuffer t m →
      m.state.steps = t.length
        ∧
      m.state.pointer = (performing .moveRight t).length - (performing .moveLeft t).length
        ∧
      (∃ written : List UInt8, m.sink = .buffer written.toArray ∧
        written.map some = (performing .output t).map fun e => e.before.state.cell?)
        ∧
      m.source.position? = some (min (performing .input t).length d.length)
        ∧
      (∀ (j : Nat) (e : Completion Source Sink) (b : UInt8),
        (performing .input t)[j]? = some e → d[j]? = some b →
          e.after.state.cell? = some b)
        ∧
      (∀ a : Nat, (∀ e ∈ t, e.before.state.pointer < a) → m.state.pointer < a →
        m.state.valueAt a = 0)
        ∧
      (performing .input t = [] → m.state.total ≡
        (performing .increment t).length - (performing .decrement t).length [ZMOD 256])) := by
  refine ⟨fun k m => ⟨fun h => h.exists_traced, ?_⟩, fun patience m h => ?_,
    fun patience f m h => ?_, fun t m h => ?_⟩
  · rintro ⟨t, ht, rfl⟩
    exact ht.reached
  · exact exists_traced_of_verdict? h rfl
  · exact exists_traced_of_verdict? h rfl
  · have haccounts := h.accounts
    refine ⟨h.reached.steps_eq, haccounts.pointer, haccounts.output, ?_, haccounts.stored,
      haccounts.untouched, haccounts.total⟩
    rw [haccounts.input]
    rfl

/-- The code `-.>` on two cells: the first cell wraps around, and is written. -/
theorem execute_accounting_wrap :
    ∃ t, Machine.Traced { tapeSize := .number 2 }
        ⟨#[.decrement, .output, .moveRight], .empty⟩ (Source.ofBytes []) Sink.newBuffer t
        ⟨⟨#[255, 0], 1, 3, 3⟩, .ofBytes [], .buffer #[255]⟩ ∧
      t.map Completion.instruction = [.decrement, .output, .moveRight] ∧
      (State.mk #[255, 0] 1 3 3).total ≡ 0 - 1 [ZMOD 256] := by
  have ht : Machine.Traced { tapeSize := .number 2 }
      ⟨#[.decrement, .output, .moveRight], .empty⟩ (Source.ofBytes []) Sink.newBuffer _
      ⟨⟨#[255, 0], 1, 3, 3⟩, .ofBytes [], .buffer #[255]⟩ :=
    (((Machine.Traced.start rfl).step (x := .decrement) rfl rfl).step (x := .output)
      rfl rfl).step (x := .moveRight) rfl rfl
  have haccounts := (execute_accounting _ _ []).2.2.2 _ _ ht
  exact ⟨_, ht, rfl, haccounts.2.2.2.2.2.2 rfl⟩

end Execute

end TapeLang
