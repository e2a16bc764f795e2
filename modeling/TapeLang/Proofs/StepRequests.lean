import Mathlib.Tactic
import TapeLang.Proofs.MachineSafety

/-!
# What a step asks of its surroundings

A step depends on the state alone, except that it may hand a byte to the sink or
take a value from the source.

**Input.** A configuration, a program and a machine, none of them checked.
**Results.** `State.request` says what the next step of a state asks for, and
`Machine.step_eq_serve` that a step is the answer to its request.  By
`Machine.run_sink` a run writes bytes and nothing else.  By `execute_map` a run
does not tell apart a source and a sink from their images under maps that keep
what is read and what is refused.
-/

namespace TapeLang

universe u v w x

/-- What one step asks of its surroundings. -/
inductive Request where
  /-- Nothing: no instruction is left. -/
  | halt
  /-- Nothing: the step fails. -/
  | stop (why : Failure)
  /-- Nothing: the step changes the state alone. -/
  | move (next : State)
  /-- That the sink takes a byte. -/
  | write (value : UInt8)
  /-- The next value of the source. -/
  | read

namespace State

/-- A request that needs the address of the current cell. -/
def onTape (s : State) (ask : Nat → Request) : Request :=
  match s.address? with
  | none => .stop (.breakdown .cellOffTape)
  | some a => ask a

def addRequest (s : State) (value : Int) : Request :=
  s.onTape fun a =>
    .move ((s.storeAt a (byteOf ((s.valueAt a).toNat + value))).goOn s.pc)

def bracketRequest (s : State) (jumps : JumpTable) (test : UInt8 → Bool) : Request :=
  s.onTape fun a =>
    if test (s.valueAt a) then
      match jumps.target? s.pc with
      | none => .stop (.breakdown (.missingJump s.pc))
      | some target => .move (s.goOn target)
    else
      .move (s.goOn s.pc)

/-- What an instruction asks for. -/
def instructionRequest (s : State) (config : Config) (jumps : JumpTable) :
    Instruction → Request
  | .moveRight =>
      if config.tapeSize.value ≤ s.pointer + 1 then
        .stop (.fault (.pointerOutOfBounds (s.pointer + 1) config.tapeSize s.pc))
      else
        .move ((s.pointTo (s.pointer + 1)).goOn s.pc)
  | .moveLeft =>
      if s.pointer = 0 then
        .stop (.fault (.pointerOutOfBounds (-1) config.tapeSize s.pc))
      else
        .move ((s.pointTo (s.pointer - 1)).goOn s.pc)
  | .increment => s.addRequest 1
  | .decrement => s.addRequest (-1)
  | .output => s.onTape fun a => .write (s.valueAt a)
  | .input => .read
  | .loopOpen => s.bracketRequest jumps (· == 0)
  | .loopClose => s.bracketRequest jumps (· != 0)

/-- What the next step of a state asks for. -/
def request (s : State) (config : Config) (program : Program) : Request :=
  if s.pc < program.length then
    match config.spent? s.steps with
    | some limit => .stop (.fault (.stepLimitExceeded limit s.pc))
    | none =>
        match program.fetch? s.pc with
        | none => .stop (.breakdown .instructionOffCode)
        | some x => s.instructionRequest config program.jumps x
  else
    .halt

end State

/-- The answer of a machine's source and sink to a request. -/
def Request.serve {σ : Type u} {τ : Type v} [ByteSource σ] [ByteSink τ] (config : Config)
    (m : Machine σ τ) : Request → Progress σ τ
  | .halt => .halted m
  | .stop why => .failed why m
  | .move next => .running { m with state := next }
  | .write value =>
      match ByteSink.refusal? m.sink value.toNat with
      | some why => m.breakdown (.refused why)
      | none => { m with sink := ByteSink.put m.sink value.toNat }.next
  | .read => m.read config

/-- The configuration with another policy for the end of input. -/
def Config.withPolicy (config : Config) (policy : EofPolicy) : Config :=
  { config with eof := policy }

section Requests

variable {config : Config} {program : Program} {s : State}

/-- The next step reads: an input instruction is next, and the budget is not spent. -/
def State.Reads (s : State) (config : Config) (program : Program) : Prop :=
  s.pc < program.length ∧ config.spent? s.steps = none ∧
    program.fetch? s.pc = some .input

/-- A request that neither reads nor reports the end of input. -/
def Request.ReadFree : Request → Prop
  | .read => False
  | .stop (.fault (.inputExhausted _)) => False
  | _ => True

namespace State

theorem onTape_readFree {ask : Nat → Request} (h : ∀ a, (ask a).ReadFree) :
    (s.onTape ask).ReadFree := by
  rw [onTape]
  cases s.address? with
  | none => trivial
  | some a => exact h a

theorem bracketRequest_readFree (jumps : JumpTable) (test : UInt8 → Bool) :
    (s.bracketRequest jumps test).ReadFree := by
  refine onTape_readFree fun a => ?_
  split
  · cases jumps.target? s.pc with
    | none => trivial
    | some target => trivial
  · trivial

theorem instructionRequest_readFree (jumps : JumpTable) {x : Instruction}
    (hx : x ≠ .input) : (s.instructionRequest config jumps x).ReadFree := by
  cases x with
  | moveRight =>
      rw [instructionRequest]
      split
      · trivial
      · trivial
  | moveLeft =>
      rw [instructionRequest]
      split
      · trivial
      · trivial
  | increment => exact onTape_readFree fun _ => trivial
  | decrement => exact onTape_readFree fun _ => trivial
  | output => exact onTape_readFree fun _ => trivial
  | input => exact absurd rfl hx
  | loopOpen =>
      rw [instructionRequest]
      exact bracketRequest_readFree jumps _
  | loopClose =>
      rw [instructionRequest]
      exact bracketRequest_readFree jumps _

theorem request_of_reads (h : s.Reads config program) :
    s.request config program = .read := by
  obtain ⟨hpc, hspent, hfetch⟩ := h
  simp only [request, hpc, if_true, hspent, hfetch, instructionRequest]

/-- A step asks for input where an input instruction is next, and nowhere else. -/
theorem request_readFree (h : ¬ s.Reads config program) :
    (s.request config program).ReadFree := by
  rw [request]
  split
  · next hpc =>
      cases hspent : config.spent? s.steps with
      | some limit => trivial
      | none =>
          cases hfetch : program.fetch? s.pc with
          | none => trivial
          | some x =>
              refine instructionRequest_readFree program.jumps ?_
              rintro rfl
              exact h ⟨hpc, hspent, hfetch⟩
  · trivial

/-- What a step asks for does not depend on what happens at the end of input. -/
theorem request_withPolicy (policy : EofPolicy) :
    s.request (config.withPolicy policy) program = s.request config program :=
  rfl

end State

end Requests

namespace Machine

section Serve

variable {σ : Type u} {τ : Type v} [ByteSource σ] [ByteSink τ]
variable {config : Config} {program : Program} (m : Machine σ τ)

theorem add_eq_serve (value : Int) :
    m.add value = (m.state.addRequest value).serve config m := by
  rw [add, State.addRequest, State.onTape]
  cases m.state.address? with
  | none => rfl
  | some a => rfl

theorem bracket_eq_serve (jumps : JumpTable) (test : UInt8 → Bool) :
    m.bracket jumps test = (m.state.bracketRequest jumps test).serve config m := by
  rw [bracket, State.cell?, State.bracketRequest, State.onTape]
  cases m.state.address? with
  | none => rfl
  | some a =>
      simp only [Option.map_some, jump]
      split
      · cases jumps.target? m.state.pc with
        | none => rfl
        | some target => rfl
      · rfl

theorem write_eq_serve :
    m.write = (m.state.onTape fun a => .write (m.state.valueAt a)).serve config m := by
  rw [write, State.cell?, State.onTape]
  cases m.state.address? with
  | none => rfl
  | some a => rfl

/-- Every instruction does what the answer to its request does. -/
theorem dispatch_eq_serve (jumps : JumpTable) (x : Instruction) :
    m.dispatch config jumps x =
      (m.state.instructionRequest config jumps x).serve config m := by
  cases x with
  | moveRight =>
      rw [dispatch, moveRight, State.instructionRequest]
      split
      · rfl
      · rfl
  | moveLeft =>
      rw [dispatch, moveLeft, State.instructionRequest]
      split
      · rfl
      · rfl
  | increment => exact m.add_eq_serve 1
  | decrement => exact m.add_eq_serve (-1)
  | output => exact m.write_eq_serve
  | input => rfl
  | loopOpen => exact m.bracket_eq_serve jumps _
  | loopClose => exact m.bracket_eq_serve jumps _

/-- A step is the answer to the request of its state. -/
theorem step_eq_serve :
    m.step config program = (m.state.request config program).serve config m := by
  rw [step, State.request]
  split
  · cases config.spent? m.state.steps with
    | some limit => rfl
    | none =>
        cases program.fetch? m.state.pc with
        | none => rfl
        | some x => exact m.dispatch_eq_serve _ x
  · rfl

theorem step_of_reads (h : m.state.Reads config program) :
    m.step config program = m.read config := by
  rw [step_eq_serve, State.request_of_reads h]
  rfl

/-- A step that does not read leaves the source alone and does not find it
exhausted. -/
theorem step_of_not_reads (h : ¬ m.state.Reads config program) :
    (m.step config program).machine.source = m.source ∧
      ∀ pc last, m.step config program ≠ .failed (.fault (.inputExhausted pc)) last := by
  have hfree := State.request_readFree h
  rw [step_eq_serve]
  cases hrequest : m.state.request config program with
  | halt => exact ⟨rfl, fun _ _ => by simp [Request.serve]⟩
  | stop why =>
      refine ⟨rfl, ?_⟩
      rintro pc last ⟨⟩
      rw [hrequest] at hfree
      exact hfree
  | move next => exact ⟨rfl, fun _ _ => by simp [Request.serve]⟩
  | write value =>
      rw [Request.serve]
      cases ByteSink.refusal? m.sink value.toNat with
      | some why => exact ⟨rfl, fun _ _ => by simp [breakdown]⟩
      | none => exact ⟨rfl, fun _ _ => by simp [next, goOn]⟩
  | read =>
      rw [hrequest] at hfree
      exact hfree.elim

end Serve

section Output

variable {σ : Type u} {τ : Type v} [ByteSource σ] [ByteSink τ]
variable (m : Machine σ τ) (config : Config) (program : Program)

omit [ByteSource σ] [ByteSink τ] in
theorem sink_store (value : Int) : (m.store value).machine.sink = m.sink := by
  rw [store]
  cases m.state.address? with
  | none => rfl
  | some a => rfl

omit [ByteSink τ] in
theorem sink_read : (m.read config).machine.sink = m.sink := by
  rw [read]
  split
  · exact sink_store _ _
  · cases config.eof with
    | error => rfl
    | zero => exact sink_store _ _
    | unchanged => rfl

/-- A step writes at most one byte, and nothing else. -/
theorem step_sink :
    ∃ bytes, (m.step config program).machine.sink = ByteSink.putAll m.sink bytes := by
  rw [step_eq_serve]
  cases m.state.request config program with
  | halt => exact ⟨[], rfl⟩
  | stop why => exact ⟨[], rfl⟩
  | move next => exact ⟨[], rfl⟩
  | write value =>
      rw [Request.serve]
      cases ByteSink.refusal? m.sink value.toNat with
      | some why => exact ⟨[], rfl⟩
      | none => exact ⟨[value], rfl⟩
  | read => exact ⟨[], m.sink_read config⟩

/-- A run adds bytes to what its sink holds, and nothing else. -/
theorem run_sink (n : Nat) :
    ∃ bytes, (m.run config program n).machine.sink = ByteSink.putAll m.sink bytes := by
  induction n generalizing m with
  | zero => exact ⟨[], rfl⟩
  | succ n ih =>
      obtain ⟨first, hfirst⟩ := m.step_sink config program
      rw [run_succ]
      cases hstep : m.step config program with
      | running next =>
          obtain ⟨rest, hrest⟩ := ih next
          rw [hstep] at hfirst
          refine ⟨first ++ rest, ?_⟩
          rw [putAll_append, ← hfirst]
          exact hrest
      | halted last
      | failed why last =>
          rw [hstep] at hfirst
          exact ⟨first, hfirst⟩

end Output

end Machine

section Maps

variable {σ : Type u} {τ : Type v} {σ' : Type w} {τ' : Type x}

/-- The machine with another source and another sink. -/
def Machine.map (f : σ → σ') (g : τ → τ') (m : Machine σ τ) : Machine σ' τ' :=
  { state := m.state, source := f m.source, sink := g m.sink }

/-- The same progress of the machine with another source and another sink. -/
def Progress.map (f : σ → σ') (g : τ → τ') : Progress σ τ → Progress σ' τ'
  | .running m => .running (m.map f g)
  | .halted m => .halted (m.map f g)
  | .failed why m => .failed why (m.map f g)

theorem Progress.machine_map (f : σ → σ') (g : τ → τ') (p : Progress σ τ) :
    (p.map f g).machine = p.machine.map f g := by
  cases p <;> rfl

theorem Progress.map_map {σ'' τ'' : Type*} (f : σ → σ') (g : τ → τ') (f' : σ' → σ'')
    (g' : τ' → τ'') (p : Progress σ τ) :
    (p.map f g).map f' g' = p.map (fun source => f' (f source)) fun sink => g' (g sink) := by
  cases p <;> rfl

variable [ByteSource σ] [ByteSource σ'] [ByteSink τ] [ByteSink τ']

/-- A map of sources that keeps what is read, as far as a cell can hold it. -/
structure SourceMap (f : σ → σ') : Prop where
  answer : ∀ source, (ByteSource.read (f source)).1.map byteOf =
    (ByteSource.read source).1.map byteOf
  rest : ∀ source, (ByteSource.read (f source)).2 = f (ByteSource.read source).2

/-- A map of sinks that keeps which bytes are refused, and goes along with writing. -/
structure SinkMap (g : τ → τ') : Prop where
  refusal? : ∀ (sink : τ) (b : UInt8),
    ByteSink.refusal? (g sink) b.toNat = ByteSink.refusal? sink b.toNat
  put : ∀ (sink : τ) (b : UInt8),
    ByteSink.put (g sink) b.toNat = g (ByteSink.put sink b.toNat)

theorem sinkMap_id : SinkMap (id : τ → τ) where
  refusal? _ _ := rfl
  put _ _ := rfl

namespace Machine

variable {f : σ → σ'} {g : τ → τ'} {config : Config} {program : Program}

omit [ByteSource σ] [ByteSource σ'] [ByteSink τ] [ByteSink τ'] in
@[simp] theorem state_map (m : Machine σ τ) : (m.map f g).state = m.state :=
  rfl

omit [ByteSource σ] [ByteSource σ'] [ByteSink τ] [ByteSink τ'] in
theorem store_map (m : Machine σ τ) (value : Int) :
    (m.map f g).store value = (m.store value).map f g := by
  simp only [store, state_map]
  cases m.state.address? with
  | none => rfl
  | some a => rfl

omit [ByteSource σ] [ByteSink τ] in
theorem store_congr (m : Machine σ τ) {a b : Int} (h : byteOf a = byteOf b) :
    m.store a = m.store b := by
  simp only [store, h]

omit [ByteSource σ] [ByteSource σ'] [ByteSink τ] [ByteSink τ'] in
theorem endOfInput_map (m : Machine σ τ) (policy : EofPolicy) :
    (m.map f g).endOfInput policy = (m.endOfInput policy).map f g := by
  cases policy with
  | error => rfl
  | zero => exact m.store_map 0
  | unchanged => rfl

omit [ByteSink τ] [ByteSink τ'] in
theorem read_map (hf : SourceMap f) (m : Machine σ τ) :
    (m.map f g).read config = (m.read config).map f g := by
  have hanswer := hf.answer m.source
  have hrest := hf.rest m.source
  rw [read, read, show (m.map f g).source = f m.source from rfl]
  revert hanswer hrest
  rcases ByteSource.read (f m.source) with ⟨value', rest'⟩
  rcases ByteSource.read m.source with ⟨value, rest⟩
  rintro hanswer rfl
  cases value with
  | none =>
      obtain rfl : value' = none := Option.map_eq_none_iff.1 hanswer
      exact endOfInput_map { m with source := rest } config.eof
  | some a =>
      obtain ⟨b, rfl, hb⟩ := Option.map_eq_some_iff.1 hanswer
      exact (store_congr _ hb).trans (store_map { m with source := rest } a)

/-- Requests other than for input are answered alike, whatever the source. -/
theorem serve_map_of_readFree (hg : SinkMap g) (m : Machine σ τ) {r : Request}
    (hr : r.ReadFree) (other : Config) :
    r.serve other (m.map f g) = (r.serve config m).map f g := by
  cases r with
  | halt => rfl
  | stop why => rfl
  | move next => rfl
  | write value =>
      simp only [Request.serve, show (m.map f g).sink = g m.sink from rfl, hg.refusal?,
        hg.put]
      cases ByteSink.refusal? m.sink value.toNat with
      | some why => rfl
      | none => rfl
  | read => exact hr.elim

/-- A step that does not read is the same for every source and every policy. -/
theorem step_map_of_not_reads (hg : SinkMap g) {m : Machine σ τ}
    (h : ¬ m.state.Reads config program) (f : σ → σ') (policy : EofPolicy) :
    (m.map f g).step (config.withPolicy policy) program =
      (m.step config program).map f g := by
  rw [step_eq_serve, step_eq_serve, state_map, State.request_withPolicy]
  exact serve_map_of_readFree hg m (State.request_readFree h) _

theorem step_map (hf : SourceMap f) (hg : SinkMap g) (m : Machine σ τ) :
    (m.map f g).step config program = (m.step config program).map f g := by
  by_cases h : m.state.Reads config program
  · rw [step_of_reads m h, step_of_reads (m.map f g) h]
    exact m.read_map hf
  · exact step_map_of_not_reads hg h f config.eof

theorem run_map (hf : SourceMap f) (hg : SinkMap g) (m : Machine σ τ) (n : Nat) :
    (m.map f g).run config program n = (m.run config program n).map f g := by
  induction n generalizing m with
  | zero => rfl
  | succ n ih =>
      rw [run_succ, run_succ, step_map hf hg]
      cases m.step config program with
      | running next => exact ih next
      | halted last => rfl
      | failed why last => rfl

omit [ByteSource σ] [ByteSource σ'] [ByteSink τ] [ByteSink τ'] in
theorem boot_map (f : σ → σ') (g : τ → τ') (source : σ) (sink : τ) :
    boot config (f source) (g sink) = (boot config source sink).map f g := by
  simp only [boot]
  cases tapeBreakdown? config.tapeSize.value with
  | none => rfl
  | some why => rfl

end Machine

/-- A run on the image of a source and a sink is the image of the run on them. -/
theorem execute_map {f : σ → σ'} {g : τ → τ'} (hf : SourceMap f) (hg : SinkMap g)
    (patience : Nat) (config : Config) (program : Program) (source : σ) (sink : τ) :
    execute patience config program (f source) (g sink) =
      (execute patience config program source sink).map f g := by
  simp only [execute, Machine.boot_map]
  cases Machine.boot config source sink with
  | running m => exact Machine.run_map hf hg m _
  | halted m => rfl
  | failed why m => rfl

end Maps
end TapeLang
