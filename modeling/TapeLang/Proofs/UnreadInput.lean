import Mathlib.Tactic
import TapeLang.Proofs.StepRequests

/-!
# Input that was not read

**Input.** A configuration, a program, bytes in memory and a sink.
**Results.** `Machine.run_taking`: as long as a run does not meet the end of its
input, it depends on the bytes that it has taken, and on nothing that stands
after them; nor does it depend on the policy for the end of input.
`execute_unread_input` states this of whole runs.  A run that ended without
meeting the end of its input ends the same way on all input with the same first
bytes, and a run that ran out of input is the beginning of every run on longer
input.
-/

namespace TapeLang

universe v

variable {τ : Type v}

/-- The machine with another source. -/
def Machine.withSource (m : Machine Source τ) (source : Source) : Machine Source τ :=
  m.map (fun _ => source) id

/-- The same progress of the machine with another source. -/
def Progress.withSource (p : Progress Source τ) (source : Source) : Progress Source τ :=
  p.map (fun _ => source) id

variable [ByteSink τ]

/-- The next step asks the source for a value, and the source has none. -/
def Machine.MeetsEnd (config : Config) (program : Program) (m : Machine Source τ) : Prop :=
  m.state.Reads config program ∧ (ByteSource.read m.source).1 = none

namespace Machine

variable {config : Config} {program : Program} {m : Machine Source τ}

section Taking

omit [ByteSink τ] in
theorem store_withSource (m : Machine Source τ) (source : Source) (value : Int) :
    (m.withSource source).store value = (m.store value).withSource source :=
  m.store_map value

theorem step_withSource_of_not_reads (h : ¬ m.state.Reads config program)
    (source : Source) (policy : EofPolicy) :
    (m.withSource source).step (config.withPolicy policy) program =
      (m.step config program).withSource source :=
  step_map_of_not_reads sinkMap_id h _ policy

omit [ByteSink τ] in
theorem source_store (m : Machine Source τ) (value : Int) :
    (m.store value).machine.source = m.source := by
  rw [store]
  cases m.state.address? with
  | none => rfl
  | some a => rfl

/-- A step that does not meet the end of input takes a few bytes, and would do the
same whatever came after them. -/
theorem step_taking {position : Nat} {unread : List UInt8}
    (hsource : m.source = .memory position unread)
    (hend : ¬ m.MeetsEnd config program) :
    ∃ taken rest, unread = taken ++ rest ∧
      (m.step config program).machine.source = .memory (position + taken.length) rest ∧
      ∀ (other : List UInt8) (policy : EofPolicy),
        (m.withSource (.memory position (taken ++ other))).step
            (config.withPolicy policy) program =
          (m.step config program).withSource
            (.memory (position + taken.length) other) := by
  by_cases hreads : m.state.Reads config program
  · cases unread with
    | nil => exact absurd ⟨hreads, by rw [hsource]; rfl⟩ hend
    | cons b rest =>
        have hread : ∀ (config : Config) (rest : List UInt8),
            (m.withSource (.memory position (b :: rest))).read config =
              (m.withSource (.memory (position + 1) rest)).store b.toNat :=
          fun _ _ => rfl
        have hself : m = m.withSource (.memory position (b :: rest)) := by
          rw [← hsource]
          rfl
        have hstep : m.step config program =
            (m.withSource (.memory (position + 1) rest)).store b.toNat := by
          rw [step_of_reads m hreads, ← hread config rest, ← hself]
        refine ⟨[b], rest, rfl, ?_, fun other policy => ?_⟩
        · rw [hstep, source_store]
          rfl
        · have hother : (m.withSource (.memory position ([b] ++ other))).state.Reads
              (config.withPolicy policy) program := hreads
          rw [hstep, step_of_reads _ hother]
          exact (hread _ other).trans
            ((m.withSource (.memory (position + 1) rest)).store_withSource _ _)
  · refine ⟨[], unread, rfl, ?_, fun other policy => ?_⟩
    · rw [(step_of_not_reads m hreads).1, hsource]
      rfl
    · exact step_withSource_of_not_reads hreads _ policy

/-- What a run takes from its source is a first part of the unread bytes.  If the
run does not meet the end of input, it would do the same whatever came after them,
and under every policy. -/
theorem run_taking {position : Nat} {unread : List UInt8} {n : Nat}
    (hsource : m.source = .memory position unread)
    (hend : ∀ k < n, ∀ last, m.run config program k = .running last →
      ¬ last.MeetsEnd config program) :
    ∃ taken rest, unread = taken ++ rest ∧
      (m.run config program n).machine.source =
        .memory (position + taken.length) rest ∧
      ∀ (other : List UInt8) (policy : EofPolicy),
        (m.withSource (.memory position (taken ++ other))).run
            (config.withPolicy policy) program n =
          (m.run config program n).withSource
            (.memory (position + taken.length) other) := by
  induction n generalizing m position unread with
  | zero => exact ⟨[], unread, rfl, hsource, fun _ _ => rfl⟩
  | succ n ih =>
      obtain ⟨first, middle, rfl, hmiddle, hfirst⟩ :=
        step_taking hsource (hend 0 (Nat.succ_pos n) m rfl)
      cases hstep : m.step config program with
      | running next =>
          rw [hstep] at hmiddle hfirst
          obtain ⟨second, rest, rfl, hrest, hsecond⟩ :=
            ih (show next.source = _ from hmiddle) fun k hk last hlast =>
              hend (k + 1) (by omega) last (by rw [run_succ_of_running hstep, hlast])
          have hlength : position + (first ++ second).length =
              position + first.length + second.length := by
            rw [List.length_append]
            omega
          refine ⟨first ++ second, rest, (List.append_assoc _ _ _).symm, ?_, ?_⟩
          · rw [run_succ_of_running hstep, hlength]
            exact hrest
          · intro other policy
            rw [List.append_assoc, run_succ_of_running (hfirst _ policy),
              run_succ_of_running hstep, hlength]
            exact hsecond other policy
      | halted last
      | failed why last =>
          refine ⟨first, middle, rfl, ?_, fun other policy => ?_⟩
          · rw [run_succ, hstep]
            rw [hstep] at hmiddle
            exact hmiddle
          · rw [run_succ, run_succ, hfirst other policy, hstep]
            rfl

end Taking

section Exhausted

omit [ByteSink τ] in
theorem store_ne_exhausted (m last : Machine Source τ) (value pc : Int) :
    m.store value ≠ .failed (.fault (.inputExhausted pc)) last := by
  rw [store]
  cases m.state.address? with
  | none => exact fun h => by cases h
  | some a => exact fun h => by cases h

omit [ByteSink τ] in
theorem read_exhausted {last : Machine Source τ} {pc : Int}
    (h : m.read config = .failed (.fault (.inputExhausted pc)) last) :
    (ByteSource.read m.source).1 = none ∧ pc = m.state.pc ∧
      last = m.withSource (ByteSource.read m.source).2 := by
  rw [read] at h
  revert h
  rcases ByteSource.read m.source with ⟨_ | value, rest⟩
  · cases config.eof with
    | error =>
        intro h
        cases h
        exact ⟨rfl, rfl, rfl⟩
    | zero => exact fun h => absurd h (store_ne_exhausted _ _ _ _)
    | unchanged => exact fun h => by cases h
  · exact fun h => absurd h (store_ne_exhausted _ _ _ _)

/-- A step that finds the input exhausted has met its end. -/
theorem meetsEnd_of_exhausted {last : Machine Source τ} {pc : Int}
    (h : m.step config program = .failed (.fault (.inputExhausted pc)) last) :
    m.MeetsEnd config program ∧ pc = m.state.pc ∧
      last = m.withSource (ByteSource.read m.source).2 := by
  by_cases hreads : m.state.Reads config program
  · rw [step_of_reads m hreads] at h
    obtain ⟨hnone, hrest⟩ := read_exhausted h
    exact ⟨⟨hreads, hnone⟩, hrest⟩
  · exact absurd h ((step_of_not_reads m hreads).2 pc last)

/-- Under the policy that makes the end of input an error, a run goes no further. -/
theorem step_of_meetsEnd (heof : config.eof = .error) (h : m.MeetsEnd config program) :
    (m.step config program).isRunning = false := by
  obtain ⟨hreads, hnone⟩ := h
  rw [step_of_reads m hreads, read]
  revert hnone
  rcases ByteSource.read m.source with ⟨_ | value, rest⟩
  · rw [heof]
    exact fun _ => rfl
  · exact fun hnone => by cases hnone

/-- A run that is still going has not met the end of input, if that is an error. -/
theorem not_meetsEnd_of_run (heof : config.eof = .error) {n k : Nat}
    {last before : Machine Source τ} (hn : m.run config program n = .running last)
    (hk : k < n) (hbefore : m.run config program k = .running before) :
    ¬ before.MeetsEnd config program := by
  intro hend
  have hended : (m.run config program (k + 1)).isRunning = false := by
    have hstep := step_of_meetsEnd heof hend
    rw [run_add_of_running hbefore, run_succ]
    cases hnext : before.step config program with
    | running next =>
        rw [hnext] at hstep
        cases hstep
    | halted next => rfl
    | failed why next => rfl
  have hsame := run_eq_of_ended (Nat.succ_le_of_lt hk) hended
  rw [← hsame, hn] at hended
  cases hended

end Exhausted

section Boot

omit [ByteSink τ]

theorem boot_withSource (policy : EofPolicy) (source other : Source) (sink : τ) :
    boot (config.withPolicy policy) other sink =
      (boot config source sink).withSource other :=
  boot_map (fun _ => other) id source sink

/-- A run begins with the source and the sink that it is given, or breaks down for
want of a tape. -/
theorem boot_cases (config : Config) (source : Source) (sink : τ) :
    (∃ why s, boot config source sink = .failed (.breakdown why) ⟨s, source, sink⟩) ∨
      ∃ s, boot config source sink = .running ⟨s, source, sink⟩ ∧ s.steps = 0 := by
  rw [boot]
  cases tapeBreakdown? config.tapeSize.value with
  | none => exact Or.inr ⟨_, rfl, rfl⟩
  | some why => exact Or.inl ⟨why, _, rfl⟩

end Boot

end Machine

section Execute

variable {config : Config} {program : Program} {d : List UInt8} {sink : τ}

/-- A run that does not meet the end of its input depends on what it has taken of
it, and on nothing else. -/
theorem execute_taking {patience : Nat} {p : Progress Source τ}
    (hp : execute patience config program (Source.ofBytes d) sink = p)
    (hend : ∀ k m, Machine.Reached config program (Source.ofBytes d) sink k m →
      ¬ m.MeetsEnd config program) :
    ∃ taken rest, d = taken ++ rest ∧ p.machine.source = .memory taken.length rest ∧
      ∀ (other : List UInt8) (policy : EofPolicy),
        execute patience (config.withPolicy policy) program
            (Source.ofBytes (taken ++ other)) sink =
          p.withSource (.memory taken.length other) := by
  subst hp
  have hboots : ∀ other policy,
      Machine.boot (config.withPolicy policy) (Source.ofBytes other) sink =
        (Machine.boot config (Source.ofBytes d) sink).withSource (Source.ofBytes other) :=
    fun other policy => Machine.boot_withSource policy _ _ sink
  rcases Machine.boot_cases config (Source.ofBytes d) sink with
    ⟨why, s, hboot⟩ | ⟨s, hboot, -⟩
  · refine ⟨[], d, rfl, ?_, fun other policy => ?_⟩
    · rw [execute, hboot]
      rfl
    · rw [execute, execute, hboots, hboot]
      rfl
  · rw [hboot] at hboots
    obtain ⟨taken, rest, hd, hrest, hother⟩ :=
      Machine.run_taking (n := config.fuel patience)
        (show (Machine.mk s (Source.ofBytes d) sink).source = .memory 0 d from rfl)
        fun k _ last hlast => hend k last ⟨_, hboot, hlast⟩
    simp only [Nat.zero_add] at hrest hother
    refine ⟨taken, rest, hd, ?_, fun other policy => ?_⟩
    · rw [execute_of_boot hboot, hrest]
    · rw [execute_of_boot (hboots _ policy), execute_of_boot hboot]
      exact hother other policy

/-- A run that is out of input has passed through the state of its failure, and a
run on longer input passes through it too. -/
theorem execute_exhausted {patience : Nat} {pc : Int} {m : Machine Source τ}
    (h : execute patience (config.withPolicy .error) program (Source.ofBytes d) sink =
      .failed (.fault (.inputExhausted pc)) m) :
    m.source = .memory d.length [] ∧ m.state.pc = pc ∧
      ∃ k : Nat, m.state.steps = k ∧
        ∀ (e : List UInt8) (policy : EofPolicy),
          Machine.Reached (config.withPolicy policy) program (Source.ofBytes (d ++ e)) sink
            k (m.withSource (.memory d.length e)) := by
  rcases Machine.boot_cases (config.withPolicy .error) (Source.ofBytes d) sink with
    ⟨why, s, hboot⟩ | ⟨s, hboot, hzero⟩
  · rw [execute, hboot] at h
    cases h
  · rw [execute_of_boot hboot] at h
    obtain ⟨k, -, last, hrun, hlast⟩ := Machine.exists_last_step h rfl
    obtain ⟨⟨-, hnone⟩, rfl, rfl⟩ := Machine.meetsEnd_of_exhausted hlast
    obtain ⟨taken, rest, hd, hrest, hother⟩ :=
      Machine.run_taking (n := k)
        (show (Machine.mk s (Source.ofBytes d) sink).source = .memory 0 d from rfl)
        fun i hi before hbefore => Machine.not_meetsEnd_of_run rfl hrun hi hbefore
    rw [hrun] at hrest hother
    replace hrest : last.source = .memory (0 + taken.length) rest := hrest
    obtain rfl : rest = [] := by
      rw [hrest] at hnone
      cases rest with
      | nil => rfl
      | cons b rest => cases hnone
    obtain rfl : d = taken := by rw [hd, List.append_nil]
    simp only [Nat.zero_add] at hrest hother
    have hsteps : last.state.steps = s.steps + k := Machine.run_steps hrun
    refine ⟨by rw [hrest]; rfl, rfl, k, ?_, fun e policy => ?_⟩
    · rw [hzero, zero_add] at hsteps
      exact hsteps
    · have hmore : Machine.boot (config.withPolicy policy) (Source.ofBytes (d ++ e)) sink =
          (Machine.boot (config.withPolicy .error) (Source.ofBytes d) sink).withSource
            (Source.ofBytes (d ++ e)) :=
        Machine.boot_withSource policy _ _ sink
      rw [hboot] at hmore
      exact ⟨_, hmore, hother e policy⟩

theorem execute_sink (patience : Nat) (config : Config) (program : Program)
    (source : Source) (sink : τ) :
    ∃ written, (execute patience config program source sink).machine.sink =
      ByteSink.putAll sink written := by
  rcases Machine.boot_cases config source sink with ⟨why, s, hboot⟩ | ⟨s, hboot, -⟩
  · rw [execute, hboot]
    exact ⟨[], rfl⟩
  · rw [execute_of_boot hboot]
    exact Machine.run_sink _ config program _

/-- From a point that a run has reached it only adds to its output, up to its end. -/
theorem Machine.Reached.sink_later {source : Source} {k : Nat} {m : Machine Source τ}
    (h : Machine.Reached config program source sink k m) :
    (∀ later last, k ≤ later → Machine.Reached config program source sink later last →
      ∃ more, last.sink = ByteSink.putAll m.sink more) ∧
    ∀ patience, (execute patience config program source sink).isRunning = false →
      ∃ more, (execute patience config program source sink).machine.sink =
        ByteSink.putAll m.sink more := by
  obtain ⟨start, hboot, hrun⟩ := h
  have hlater : ∀ n, k ≤ n → ∃ more, (start.run config program n).machine.sink =
      ByteSink.putAll m.sink more := by
    intro n hn
    obtain ⟨extra, rfl⟩ := Nat.exists_eq_add_of_le hn
    rw [Machine.run_add_of_running hrun]
    exact m.run_sink config program extra
  constructor
  · rintro later last hle ⟨start', hboot', hlast⟩
    obtain rfl : start = start' := Progress.running.inj (hboot.symm.trans hboot')
    obtain ⟨more, hmore⟩ := hlater later hle
    rw [hlast] at hmore
    exact ⟨more, hmore⟩
  · intro patience hended
    rw [execute_of_boot hboot] at hended ⊢
    rcases Nat.lt_or_ge (config.fuel patience) k with hlt | hge
    · have hsame := Machine.run_eq_of_ended hlt.le hended
      rw [← hsame, hrun] at hended
      cases hended
    · exact hlater _ hge

/-- **Input that was not read.**  If a run on bytes in memory has read `r` of them
and has not met their end, then it ends the same way on all bytes with the same
first `r`, and under every policy.  If it is out of input, it has read everything
and was in the middle of every run on longer input: that run passes through the
state of the failure with the same output, and only adds to it. -/
theorem execute_unread_input (config : Config) (program : Program) (d : List UInt8)
    (sink : τ) :
    (∀ patience p r,
      execute patience config program (Source.ofBytes d) sink = p →
      (∀ k m, Machine.Reached config program (Source.ofBytes d) sink k m →
        ¬ m.MeetsEnd config program) →
      p.machine.source.position? = some r →
      ∀ d' : List UInt8, d'.take r = d.take r → ∀ policy,
        execute patience (config.withPolicy policy) program (Source.ofBytes d') sink =
          p.withSource (.memory r (d'.drop r)))
      ∧
    (∀ patience pc m,
      execute patience (config.withPolicy .error) program (Source.ofBytes d) sink =
        .failed (.fault (.inputExhausted pc)) m →
      m.source = .memory d.length [] ∧ m.state.pc = pc ∧
      ∃ (k : Nat) (written : List UInt8),
        m.state.steps = k ∧ m.sink = ByteSink.putAll sink written ∧
        ∀ (e : List UInt8) (policy : EofPolicy),
          Machine.Reached (config.withPolicy policy) program (Source.ofBytes (d ++ e)) sink
            k (m.withSource (.memory d.length e)) ∧
          (∀ later last, k ≤ later →
            Machine.Reached (config.withPolicy policy) program (Source.ofBytes (d ++ e))
              sink later last →
            ∃ more, last.sink = ByteSink.putAll sink (written ++ more)) ∧
          ∀ patience p,
            execute patience (config.withPolicy policy) program (Source.ofBytes (d ++ e))
              sink = p →
            p.isRunning = false →
            ∃ more, p.machine.sink = ByteSink.putAll sink (written ++ more)) := by
  constructor
  · intro patience p r hp hend hr d' hd' policy
    obtain ⟨taken, rest, rfl, hsource, hother⟩ := execute_taking hp hend
    rw [hsource] at hr
    obtain rfl : taken.length = r := Option.some.inj hr
    rw [List.take_left] at hd'
    have hsplit : taken ++ d'.drop taken.length = d' := by
      conv_rhs => rw [← List.take_append_drop taken.length d', hd']
    have hrun := hother (d'.drop taken.length) policy
    rwa [hsplit] at hrun
  · intro patience pc m h
    obtain ⟨hsource, hpc, k, hsteps, hreached⟩ := execute_exhausted h
    obtain ⟨written, hwritten⟩ :=
      execute_sink patience (config.withPolicy .error) program (Source.ofBytes d) sink
    rw [h] at hwritten
    replace hwritten : m.sink = ByteSink.putAll sink written := hwritten
    refine ⟨hsource, hpc, k, written, hsteps, hwritten, fun e policy => ?_⟩
    obtain ⟨hlater, hended⟩ := (hreached e policy).sink_later
    simp only [Machine.putAll_append, ← hwritten]
    refine ⟨hreached e policy, hlater, ?_⟩
    rintro patience' p rfl hp
    exact hended patience' hp

/-- The code `,.,` on three bytes reads two of them, so it ends the same way without
the third; on one byte it is out of input after writing that byte. -/
theorem execute_unread_input_echo :
    (∃ p, execute 4 { tapeSize := .number 1 } ⟨#[.input, .output, .input], .empty⟩
          (Source.ofBytes [65, 66, 67]) Sink.newBuffer = p ∧
        p.machine.source.position? = some 2 ∧
        execute 4 { tapeSize := .number 1, eof := .zero }
            ⟨#[.input, .output, .input], .empty⟩ (Source.ofBytes [65, 66])
            Sink.newBuffer =
          p.withSource (.memory 2 [])) ∧
      execute 4 { tapeSize := .number 1 } ⟨#[.input, .output, .input], .empty⟩
          (Source.ofBytes [65]) Sink.newBuffer =
        .failed (.fault (.inputExhausted 2))
          ⟨⟨#[65], 0, 2, 2⟩, .memory 1 [], .buffer #[65]⟩ ∧
      Machine.Reached { tapeSize := .number 1, eof := .unchanged }
        ⟨#[.input, .output, .input], .empty⟩ (Source.ofBytes [65, 66]) Sink.newBuffer 2
        ⟨⟨#[65], 0, 2, 2⟩, .memory 1 [66], .buffer #[65]⟩ := by
  constructor
  · have hend : ∀ k m, Machine.Reached { tapeSize := .number 1 }
        ⟨#[.input, .output, .input], .empty⟩ (Source.ofBytes [65, 66, 67]) Sink.newBuffer
        k m → ¬ m.MeetsEnd { tapeSize := .number 1 }
          ⟨#[.input, .output, .input], .empty⟩ := by
      rintro k m ⟨start, hboot, hrun⟩ ⟨⟨hpc, -, hfetch⟩, hnone⟩
      cases hboot
      match k, hrun with
      | 0, hrun => cases hrun; cases hnone
      | 1, hrun => cases hrun; cases hfetch
      | 2, hrun => cases hrun; cases hnone
      | 3, hrun => cases hrun; cases hpc
      | k + 4, hrun => cases hrun
    exact ⟨_, rfl, rfl, (execute_unread_input _ _ [65, 66, 67] Sink.newBuffer).1 4 _ 2 rfl
      hend rfl [65, 66] rfl .zero⟩
  · have hfailed : execute 4 { tapeSize := .number 1 }
        ⟨#[.input, .output, .input], .empty⟩ (Source.ofBytes [65]) Sink.newBuffer =
          .failed (.fault (.inputExhausted 2))
            ⟨⟨#[65], 0, 2, 2⟩, .memory 1 [], .buffer #[65]⟩ := rfl
    obtain ⟨-, -, k, written, hsteps, -, hmore⟩ :=
      (execute_unread_input { tapeSize := .number 1 } _ [65] Sink.newBuffer).2 4 2 _ hfailed
    have hcount : (2 : Int) = k := hsteps
    obtain rfl : 2 = k := by omega
    exact ⟨hfailed, (hmore [66] .unchanged).1⟩

end Execute
end TapeLang
