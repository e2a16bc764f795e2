import Mathlib.Tactic
import Mathlib.Data.Set.Card
import TapeLang.Proofs.BoundedHalting

/-!
# Zeros behind the input

Under the policy that reads zero at the end of input, the input goes on with zeros for
ever.

**Input.** A configuration, a program, bytes in memory and a sink.
**Algorithm.** The run on the bytes alone is set beside the run on the bytes with zeros
behind them, under any policy.  Each time that the first one meets the end of input,
the second one takes one of its zeros; otherwise both take the same.
**Results.** `Machine.step_pad` says this of a step and `Machine.run_pad` of a run that
has ended.  `execute_zero_tail`: as many zeros as the run meets the end of input are
enough for the second run to end as the first one does.
-/

namespace TapeLang

universe v

variable {τ : Type v}

section Padding

/-- The source with more bytes read before its first, and zeros behind its last. -/
def Source.pad (extra zeros : Nat) : Source → Source
  | .memory position unread => .memory (position + extra) (unread ++ List.replicate zeros 0)
  | other => other

/-- The machine whose source has more bytes read and zeros at its end. -/
def Machine.pad (extra zeros : Nat) (m : Machine Source τ) : Machine Source τ :=
  m.map (Source.pad extra zeros) id

/-- The same progress of the machine whose source has more bytes read and zeros at its
end. -/
def Progress.pad (extra zeros : Nat) (p : Progress Source τ) : Progress Source τ :=
  p.map (Source.pad extra zeros) id

end Padding

section Steps

variable [ByteSink τ]

instance (config : Config) (program : Program) (m : Machine Source τ) :
    Decidable (m.MeetsEnd config program) :=
  inferInstanceAs (Decidable ((_ ∧ _ ∧ _) ∧ _))

/-- How often the next step meets the end of input: once or not at all. -/
def Machine.ends (config : Config) (program : Program) (m : Machine Source τ) : Nat :=
  if m.MeetsEnd config program then 1 else 0

/-- The steps at which the run of a machine meets the end of input. -/
def Machine.endSteps (config : Config) (program : Program) (m : Machine Source τ) :
    Set Nat :=
  {k | ∃ last, m.run config program k = .running last ∧ last.MeetsEnd config program}

/-- The steps at which a run on a fresh tape meets the end of input. -/
def endSteps (config : Config) (program : Program) (source : Source) (sink : τ) : Set Nat :=
  {k | ∃ m, Machine.Reached config program source sink k m ∧ m.MeetsEnd config program}

namespace Machine

variable {config : Config} {program : Program} {m next : Machine Source τ}

section Count

theorem zero_mem_endSteps : 0 ∈ m.endSteps config program ↔ m.MeetsEnd config program := by
  constructor
  · rintro ⟨last, hrun, hend⟩
    obtain rfl := Progress.running.inj hrun
    exact hend
  · intro hend
    exact ⟨m, rfl, hend⟩

theorem succ_mem_endSteps (hstep : m.step config program = .running next) {k : Nat} :
    k + 1 ∈ m.endSteps config program ↔ k ∈ next.endSteps config program := by
  simp only [Machine.endSteps, Set.mem_ofPred_eq, run_succ_of_running hstep]

theorem succ_notMem_endSteps (hended : (m.step config program).isRunning = false) {k : Nat} :
    k + 1 ∉ m.endSteps config program := by
  rintro ⟨last, hrun, -⟩
  rw [run_succ] at hrun
  cases hstep : m.step config program with
  | running next =>
      rw [hstep] at hended
      cases hended
  | halted last =>
      rw [hstep] at hrun
      cases hrun
  | failed why last =>
      rw [hstep] at hrun
      cases hrun

omit [ByteSink τ] in
theorem encard_now :
    ({k | k = 0 ∧ m.MeetsEnd config program} : Set Nat).encard = m.ends config program := by
  rw [ends]
  split
  · next h => simp [h]
  · next h => simp [h]

/-- A run meets the end of input in its first step and in those after it. -/
theorem encard_endSteps_of_running (hstep : m.step config program = .running next) :
    (m.endSteps config program).encard =
      m.ends config program + (next.endSteps config program).encard := by
  have hsplit : m.endSteps config program =
      {k | k = 0 ∧ m.MeetsEnd config program} ∪
        Nat.succ '' next.endSteps config program := by
    ext k
    cases k with
    | zero => simp [zero_mem_endSteps]
    | succ k => simp [succ_mem_endSteps hstep]
  have hdisjoint : Disjoint {k | k = 0 ∧ m.MeetsEnd config program}
      (Nat.succ '' next.endSteps config program) := by
    rw [Set.disjoint_left]
    rintro k ⟨rfl, -⟩ ⟨j, -, hj⟩
    exact Nat.succ_ne_zero j hj
  rw [hsplit, Set.encard_union_eq hdisjoint, encard_now,
    Nat.succ_injective.encard_image]

theorem encard_endSteps_of_ended (hended : (m.step config program).isRunning = false) :
    (m.endSteps config program).encard = m.ends config program := by
  rw [← encard_now]
  congr 1
  ext k
  cases k with
  | zero => simp [zero_mem_endSteps]
  | succ k => simp [succ_notMem_endSteps hended]

end Count

section Pad

section Read

omit [ByteSink τ]

theorem store_pad (m : Machine Source τ) (extra zeros : Nat) (value : Int) :
    (m.pad extra zeros).store value = (m.store value).pad extra zeros :=
  m.store_map value

/-- Where a machine reads a byte, the padded machine reads it too. -/
theorem read_pad_of_cons {position : Nat} {b : UInt8} {rest : List UInt8}
    (hsource : m.source = .memory position (b :: rest)) (extra zeros : Nat)
    (other : Config) :
    (m.pad extra zeros).read other = (m.read config).pad extra zeros := by
  obtain ⟨s, source, sink⟩ := m
  obtain rfl : source = _ := hsource
  have hread : ∀ (config : Config) (position : Nat) (rest : List UInt8),
      (Machine.mk s (.memory position (b :: rest)) sink : Machine Source τ).read config =
        (Machine.mk s (.memory (position + 1) rest) sink : Machine Source τ).store b.toNat :=
    fun _ _ _ => rfl
  have hposition : position + extra + 1 = position + 1 + extra := by omega
  rw [hread config, ← store_pad]
  refine (hread other (position + extra) _).trans ?_
  rw [hposition]
  rfl

/-- Where a machine meets the end of input and reads zero, the padded machine reads the
first of its zeros. -/
theorem read_pad_of_nil {position : Nat} (hsource : m.source = .memory position [])
    (heof : config.eof = .zero) (extra zeros : Nat) (other : Config) :
    (m.pad extra (zeros + 1)).read other = (m.read config).pad (extra + 1) zeros := by
  obtain ⟨s, source, sink⟩ := m
  obtain rfl : source = _ := hsource
  have hend : (Machine.mk s (.memory position []) sink : Machine Source τ).read config =
      (Machine.mk s (.memory position []) sink : Machine Source τ).store 0 := by
    simp only [Machine.read, ByteSource.read, Source.read, heof, endOfInput]
  rw [hend, ← store_pad]
  rfl

end Read

/-- The step of the padded machine takes a zero where the step of the machine meets the
end of input, and takes the same otherwise. -/
theorem step_pad (heof : config.eof = .zero) {d : List UInt8} (hserves : m.source.Serves d)
    (program : Program) (extra zeros : Nat) (policy : EofPolicy) :
    (m.pad extra (zeros + m.ends config program)).step (config.withPolicy policy) program =
      (m.step config program).pad (extra + m.ends config program) zeros := by
  by_cases hreads : m.state.Reads config program
  · have hpadded : ∀ zeros,
        (m.pad extra zeros).state.Reads (config.withPolicy policy) program :=
      fun _ => hreads
    rw [step_of_reads m hreads, step_of_reads _ (hpadded _)]
    obtain ⟨position, -, hsource⟩ := hserves
    cases hunread : d.drop position with
    | nil =>
        rw [hunread] at hsource
        have hends : m.ends config program = 1 := if_pos ⟨hreads, by rw [hsource]; rfl⟩
        rw [hends]
        exact read_pad_of_nil hsource heof extra zeros _
    | cons b rest =>
        rw [hunread] at hsource
        have hends : m.ends config program = 0 := by
          refine if_neg fun hend => ?_
          have hnone := hend.2
          rw [hsource] at hnone
          cases hnone
        rw [hends]
        exact read_pad_of_cons hsource extra zeros _
  · have hends : m.ends config program = 0 := if_neg fun hend => hreads hend.1
    rw [hends]
    exact step_map_of_not_reads sinkMap_id hreads _ policy

/-- The run of the padded machine ends as the run of the machine does, and takes as many
zeros as that one meets the end of input. -/
theorem run_pad (heof : config.eof = .zero) {d : List UInt8} (hserves : m.source.Serves d)
    {n : Nat} (hended : (m.run config program n).isRunning = false) :
    ∃ q : Nat, (m.endSteps config program).encard = q ∧
      ∀ extra zeros policy,
        (m.pad extra (zeros + q)).run (config.withPolicy policy) program n =
          (m.run config program n).pad (extra + q) zeros := by
  induction n generalizing m with
  | zero => cases hended
  | succ n ih =>
      have hpad := step_pad heof hserves program
      cases hstep : m.step config program with
      | running next =>
          have hnext : next.source.Serves d := by
            have hkept : (m.step config program).machine.source.Serves d :=
              source_step (P := Source.Serves d) (fun _ h => h.read) hserves
            rw [hstep] at hkept
            exact hkept
          rw [run_succ_of_running hstep] at hended
          obtain ⟨q, hq, hrun⟩ := ih hnext hended
          refine ⟨m.ends config program + q, ?_, fun extra zeros policy => ?_⟩
          · rw [encard_endSteps_of_running hstep, hq, Nat.cast_add]
          · have hfirst := hpad extra (zeros + q) policy
            rw [hstep] at hfirst
            have hzeros : zeros + (m.ends config program + q) =
                zeros + q + m.ends config program := by omega
            rw [hzeros, run_succ_of_running hfirst, run_succ_of_running hstep,
              ← Nat.add_assoc]
            exact hrun _ zeros policy
      | halted last
      | failed why last =>
          refine ⟨m.ends config program,
            encard_endSteps_of_ended (by rw [hstep]; rfl), fun extra zeros policy => ?_⟩
          rw [run_succ, run_succ, hpad extra zeros policy, hstep]
          rfl

end Pad

section End

/-- What a source keeps when it is read, it keeps up to the end of a run. -/
theorem source_run {P : Source → Prop}
    (hread : ∀ source, P source → P (ByteSource.read source).2) (h : P m.source) (n : Nat) :
    P (m.run config program n).machine.source := by
  induction n generalizing m with
  | zero => exact h
  | succ n ih =>
      have hkept : P (m.step config program).machine.source := source_step hread h
      rw [run_succ]
      cases hstep : m.step config program with
      | running next =>
          rw [hstep] at hkept
          exact ih hkept
      | halted last
      | failed why last =>
          rw [hstep] at hkept
          exact hkept

/-- A run that has met the end of its bytes ends with all of them read. -/
theorem source_of_mem_endSteps {d : List UInt8} (hserves : m.source.Serves d) {n k : Nat}
    (hended : (m.run config program n).isRunning = false)
    (hk : k ∈ m.endSteps config program) :
    (m.run config program n).machine.source = .memory d.length [] := by
  obtain ⟨last, hrun, -, hnone⟩ := hk
  have hlast : last.source.Serves d := by
    have hkept : (m.run config program k).machine.source.Serves d :=
      source_run (P := Source.Serves d) (fun _ h => h.read) hserves k
    rw [hrun] at hkept
    exact hkept
  have hall : last.source = .memory d.length [] := by
    obtain ⟨position, hle, hsource⟩ := hlast
    cases hunread : d.drop position with
    | nil =>
        obtain rfl : position = d.length := le_antisymm hle (List.drop_eq_nil_iff.1 hunread)
        rw [hsource, hunread]
    | cons b rest =>
        rw [hsource, hunread] at hnone
        cases hnone
  have hle : k ≤ n := by
    by_contra hlt
    rw [← run_eq_of_ended (by omega : n ≤ k) hended, hrun] at hended
    cases hended
  obtain ⟨rest, rfl⟩ := Nat.exists_eq_add_of_le hle
  rw [run_add_of_running hrun]
  refine source_run (P := fun source => source = .memory d.length []) ?_ hall rest
  rintro source rfl
  rfl

/-- How many bytes the padded machine has read at the end of its run. -/
theorem position?_pad {d : List UInt8} (hserves : m.source.Serves d) {n q : Nat}
    (hended : (m.run config program n).isRunning = false)
    (hq : (m.endSteps config program).encard = q) (zeros : Nat) :
    ((m.run config program n).machine.source.pad q zeros).position? =
      if 0 < q then some (d.length + q)
      else (m.run config program n).machine.source.position? := by
  rcases Nat.eq_zero_or_pos q with rfl | hpos
  · obtain ⟨position, -, hsource⟩ :=
      source_run (P := Source.Serves d) (fun _ h => h.read) hserves n
    rw [if_neg (Nat.lt_irrefl 0), hsource]
    rfl
  · have hsome : (m.endSteps config program).Nonempty := by
      rw [← Set.encard_pos, hq]
      exact_mod_cast hpos
    obtain ⟨k, hk⟩ := hsome
    rw [if_pos hpos, source_of_mem_endSteps hserves hended hk]
    rfl

end End

end Machine

end Steps

section Execute

theorem Progress.pad_eq (extra zeros : Nat) (p : Progress Source τ) :
    p.pad extra zeros = p.withSource (p.machine.source.pad extra zeros) := by
  cases p <;> rfl

variable [ByteSink τ]

theorem endSteps_of_boot {config : Config} {source : Source} {sink : τ}
    {start : Machine Source τ} (hboot : Machine.boot config source sink = .running start)
    (program : Program) :
    endSteps config program source sink = start.endSteps config program := by
  ext k
  constructor
  · rintro ⟨m, ⟨start', hboot', hrun⟩, hend⟩
    obtain rfl := Progress.running.inj (hboot.symm.trans hboot')
    exact ⟨m, hrun, hend⟩
  · rintro ⟨m, hrun, hend⟩
    exact ⟨m, ⟨start, hboot, hrun⟩, hend⟩

theorem endSteps_of_boot_failed {config : Config} {source : Source} {sink : τ}
    {why : Failure} {m : Machine Source τ}
    (hboot : Machine.boot config source sink = .failed why m) (program : Program) :
    endSteps config program source sink = ∅ := by
  rw [Set.eq_empty_iff_forall_notMem]
  rintro k ⟨last, ⟨start, hstart, -⟩, -⟩
  rw [hboot] at hstart
  cases hstart

/-- **Zeros behind the input.**  A run that reads zero at the end of input and ends has
met that end a number of times.  With at least as many zeros behind its bytes it ends the
same way under every policy: same state, same failure and same output.  Then it has read
all of the bytes and one zero for each time; if it never met the end, it has read as many
bytes as before. -/
theorem execute_zero_tail (config : Config) (program : Program) (d : List UInt8) (sink : τ)
    (patience : Nat) {p : Progress Source τ}
    (hp : execute patience (config.withPolicy .zero) program (Source.ofBytes d) sink = p)
    (hended : p.isRunning = false) :
    ∃ q : Nat,
      (endSteps (config.withPolicy .zero) program (Source.ofBytes d) sink).encard = q ∧
      ∀ k, q ≤ k → ∀ policy, ∃ source,
        execute patience (config.withPolicy policy) program
            (Source.ofBytes (d ++ List.replicate k 0)) sink = p.withSource source ∧
          source.position? =
            if 0 < q then some (d.length + q) else p.machine.source.position? := by
  subst hp
  have hboots : ∀ other policy,
      Machine.boot (config.withPolicy policy) (Source.ofBytes other) sink =
        (Machine.boot (config.withPolicy .zero) (Source.ofBytes d) sink).withSource
          (Source.ofBytes other) :=
    fun other policy => Machine.boot_withSource policy _ _ sink
  rcases Machine.boot_cases (config.withPolicy .zero) (Source.ofBytes d) sink with
    ⟨why, s, hboot⟩ | ⟨s, hboot, -⟩
  · refine ⟨0, by rw [endSteps_of_boot_failed hboot]; simp, fun k _ policy => ?_⟩
    refine ⟨Source.ofBytes (d ++ List.replicate k 0), ?_, ?_⟩
    · rw [execute, execute, hboots, hboot]
      rfl
    · rw [execute, hboot]
      rfl
  · rw [hboot] at hboots
    rw [execute_of_boot hboot] at hended ⊢
    have hserves : (Source.ofBytes d).Serves d := ⟨0, Nat.zero_le _, rfl⟩
    obtain ⟨q, hq, hrun⟩ := Machine.run_pad rfl hserves hended
    refine ⟨q, by rw [endSteps_of_boot hboot, hq], fun k hk policy => ?_⟩
    obtain ⟨zeros, rfl⟩ := Nat.exists_eq_add_of_le' hk
    refine ⟨_, ?_, Machine.position?_pad hserves hended hq zeros⟩
    have hpadded := hrun 0 zeros policy
    rw [Nat.zero_add] at hpadded
    rw [execute_of_boot (hboots _ policy), ← Progress.pad_eq]
    exact hpadded

/-- The code `,+,.` on one byte meets the end of input once, in its third step, so one
zero behind the byte makes up for it. -/
theorem execute_zero_tail_once :
    endSteps { tapeSize := .number 1, eof := .zero }
        ⟨#[.input, .increment, .input, .output], .empty⟩ (Source.ofBytes [65])
        Sink.newBuffer = {2} ∧
      execute 5 { tapeSize := .number 1, eof := .zero }
          ⟨#[.input, .increment, .input, .output], .empty⟩ (Source.ofBytes [65])
          Sink.newBuffer =
        .halted ⟨⟨#[0], 0, 4, 4⟩, .memory 1 [], .buffer #[0]⟩ ∧
      ∃ source,
        execute 5 { tapeSize := .number 1, eof := .error }
            ⟨#[.input, .increment, .input, .output], .empty⟩ (Source.ofBytes [65, 0])
            Sink.newBuffer =
          .halted ⟨⟨#[0], 0, 4, 4⟩, source, .buffer #[0]⟩ ∧
        source.position? = some 2 := by
  have hends : endSteps { tapeSize := .number 1, eof := .zero }
      ⟨#[.input, .increment, .input, .output], .empty⟩ (Source.ofBytes [65])
      Sink.newBuffer = {2} := by
    ext k
    constructor
    · rintro ⟨m, ⟨start, hboot, hrun⟩, ⟨hpc, -, hfetch⟩, hnone⟩
      cases hboot
      match k, hrun with
      | 0, hrun => cases hrun; cases hnone
      | 1, hrun => cases hrun; cases hfetch
      | 2, hrun => rfl
      | 3, hrun => cases hrun; cases hfetch
      | 4, hrun => cases hrun; cases hpc
      | k + 5, hrun => cases hrun
    · rintro rfl
      exact ⟨_, ⟨_, rfl, rfl⟩, ⟨by decide, rfl, rfl⟩, rfl⟩
  have hrun : execute 5 { tapeSize := .number 1, eof := .zero }
      ⟨#[.input, .increment, .input, .output], .empty⟩ (Source.ofBytes [65])
      Sink.newBuffer =
        .halted ⟨⟨#[0], 0, 4, 4⟩, .memory 1 [], .buffer #[0]⟩ := rfl
  obtain ⟨q, hq, hmore⟩ :=
    execute_zero_tail { tapeSize := .number 1 } _ [65] Sink.newBuffer 5 hrun rfl
  have hcount : (endSteps { tapeSize := .number 1, eof := .zero }
      ⟨#[.input, .increment, .input, .output], .empty⟩ (Source.ofBytes [65])
      Sink.newBuffer).encard = q := hq
  rw [hends, Set.encard_singleton] at hcount
  obtain rfl : 1 = q := by exact_mod_cast hcount
  exact ⟨hends, hrun, hmore 1 le_rfl .error⟩

end Execute
end TapeLang
