import Mathlib.Tactic
import TapeLang.Proofs.BracketGrammar
import TapeLang.Proofs.BracketSearch

/-!
# The brackets that have no partner

The pass over the brackets puts each of them in one of three places: it joins it
to a partner, finds it stray, or leaves it open.

**Input.** A sequence of instructions, whether its brackets match or not.
**Algorithm.** `Scan.accounted` gathers the brackets of the pairs, the stray ones
and the pending ones; every instruction that is read adds itself to them if it is
a bracket, and nothing else.
**Results.** `perm_accounted`: by the end each bracket is accounted for once.
`isStray_lt_isUnclosed`: no stray bracket stands behind an unclosed one.
`faults_exact` reads off what `faults` lists, in which order, and that `resolve`
fails with the first of it.
-/

namespace TapeLang
namespace Loop

open JumpTable

instance (code : List Instruction) (i : Nat) : Decidable (IsBracket code i) :=
  inferInstanceAs (Decidable (_ ∨ _))

/-- The indices of the brackets of a code, in ascending order. -/
def bracketIndices (code : List Instruction) : List Nat :=
  (List.range code.length).filter (IsBracket code ·)

section Brackets

variable {code : List Instruction} {i : Nat}

theorem IsBracket.lt_length (h : IsBracket code i) : i < code.length := by
  rcases h with h | h
  · exact (List.getElem?_eq_some_iff.1 h).1
  · exact (List.getElem?_eq_some_iff.1 h).1

@[simp] theorem mem_bracketIndices : i ∈ bracketIndices code ↔ IsBracket code i := by
  simp only [bracketIndices, List.mem_filter, List.mem_range, decide_eq_true_eq]
  exact ⟨fun h => h.2, fun h => ⟨h.lt_length, h⟩⟩

theorem nodup_bracketIndices (code : List Instruction) : (bracketIndices code).Nodup :=
  List.nodup_range.filter _

theorem isBracket_snoc_of_lt (h : i < code.length) (x : Instruction) :
    IsBracket (code ++ [x]) i ↔ IsBracket code i := by
  rw [IsBracket, List.getElem?_append_left h, IsBracket]

theorem isBracket_snoc_length (code : List Instruction) (x : Instruction) :
    IsBracket (code ++ [x]) code.length ↔ x.tilt ≠ 0 := by
  cases x <;> simp [IsBracket, Instruction.tilt]

/-- One more instruction adds its own index if it is a bracket. -/
theorem bracketIndices_snoc (code : List Instruction) (x : Instruction) :
    bracketIndices (code ++ [x]) =
      bracketIndices code ++ if x.tilt = 0 then [] else [code.length] := by
  have hold : (List.range code.length).filter (IsBracket (code ++ [x]) ·) =
      bracketIndices code := by
    refine List.filter_congr fun j hj => ?_
    rw [List.mem_range] at hj
    simp only [isBracket_snoc_of_lt hj]
  rw [bracketIndices, List.length_append, List.length_singleton, List.range_succ,
    List.filter_append, hold]
  by_cases hx : x.tilt = 0
  · simp [isBracket_snoc_length, hx]
  · simp [isBracket_snoc_length, hx]

end Brackets

namespace Scan

/-- The brackets that a pass has dealt with: those of its pairs, the stray ones and
the pending ones. -/
def accounted (s : Scan) : List Nat :=
  endpoints s.pairs ++ (s.strays ++ s.pending)

/-- A bracket that is read is accounted for, and moves no other bracket out of
account. -/
theorem perm_accounted_visit (s : Scan) (x : Instruction) :
    (s.visit x).accounted.Perm
      (s.accounted ++ if x.tilt = 0 then [] else [s.position]) := by
  rw [List.perm_iff_count]
  intro i
  cases x with
  | loopOpen => simp [accounted, visit, Instruction.tilt, List.count_cons]
  | loopClose =>
      cases hp : s.pending with
      | nil => simp [accounted, visit, Instruction.tilt, List.count_cons, hp]
      | cons opening outer =>
          have hvisit : (s.visit .loopClose).accounted =
              opening :: s.position :: (endpoints s.pairs ++ (s.strays ++ outer)) := by
            simp [accounted, visit, hp, endpoints_cons]
          have hbefore : s.accounted =
              endpoints s.pairs ++ (s.strays ++ opening :: outer) := by
            rw [accounted, hp]
          rw [hvisit, hbefore, if_neg (by decide)]
          simp only [List.count_append, List.count_cons, List.count_nil]
          omega
  | _ => simp [accounted, visit, Instruction.tilt]

end Scan

section Account

/-- Every bracket of a code is in one pair, stray or unclosed, and is so once. -/
theorem perm_accounted (code : List Instruction) :
    (scan code).accounted.Perm (bracketIndices code) := by
  induction code using List.reverseRecOn with
  | nil => exact List.Perm.nil
  | append_singleton code x ih =>
      rw [scan_append, bracketIndices_snoc, ← (Scan.tracks_scan code).position_eq]
      exact ((scan code).perm_accounted_visit x).trans (ih.append_right _)

theorem nodup_accounted (code : List Instruction) : (scan code).accounted.Nodup :=
  (perm_accounted code).nodup_iff.2 (nodup_bracketIndices code)

/-- No bracket has two partners, also where others have none. -/
theorem nodup_endpoints_scan (code : List Instruction) :
    (endpoints (scan code).pairs).Nodup :=
  (List.nodup_append.1 (nodup_accounted code)).1

/-- Two indices are an opening bracket and a closing one behind it. -/
def Joined (code : List Instruction) (pair : Nat × Nat) : Prop :=
  pair.1 < pair.2 ∧ code[pair.1]? = some .loopOpen ∧ code[pair.2]? = some .loopClose

theorem Joined.append {code : List Instruction} {pair : Nat × Nat} (h : Joined code pair)
    (rest : List Instruction) :
    Joined (code ++ rest) pair := by
  obtain ⟨hlt, hopen, hclose⟩ := h
  refine ⟨hlt, ?_, ?_⟩
  · rw [List.getElem?_append_left (List.getElem?_eq_some_iff.1 hopen).1]
    exact hopen
  · rw [List.getElem?_append_left (List.getElem?_eq_some_iff.1 hclose).1]
    exact hclose

/-- The pass joins opening brackets to closing ones behind them. -/
theorem joined_of_mem_pairs {code : List Instruction} {pair : Nat × Nat}
    (h : pair ∈ (scan code).pairs) :
    Joined code pair := by
  induction code using List.reverseRecOn with
  | nil => simp [Scan.start] at h
  | append_singleton code x ih =>
      rw [scan_append, List.foldl_cons, List.foldl_nil] at h
      have htracks := Scan.tracks_scan code
      cases x with
      | loopClose =>
          cases hp : (scan code).pending with
          | nil =>
              simp only [Scan.visit, hp] at h
              exact (ih h).append _
          | cons opening outer =>
              simp only [Scan.visit, hp, List.mem_cons] at h
              rcases h with rfl | h
              · have hmem : opening ∈ (scan code).pending := by simp [hp]
                have hopen := (htracks.mem_pending opening).1 hmem
                have hlt := hopen.lt_length
                refine ⟨?_, ?_, ?_⟩
                · rw [htracks.position_eq]
                  exact hlt
                · rw [List.getElem?_append_left hlt]
                  exact hopen.1
                · rw [htracks.position_eq]
                  simp
              · exact (ih h).append _
      | _ => exact (ih h).append _

end Account

section Order

variable {code : List Instruction}

/-- A stray bracket takes the depth below all that came before it, so none of the
brackets before it is unclosed. -/
theorem isStray_lt_isUnclosed {i j : Nat} (hi : IsStray code i) (hj : IsUnclosed code j) :
    i < j := by
  by_contra hle
  have hle : j ≤ i := by omega
  have hbelow := hi.2 j hle
  have habove := hj.2 (i + 1) (by omega) hi.lt_length
  omega

theorem mem_strayCloses {i : Nat} : i ∈ (scan code).strayCloses ↔ IsStray code i := by
  rw [Scan.strayCloses, List.mem_reverse, (Scan.tracks_scan code).mem_strays]

theorem mem_unclosedOpens {i : Nat} :
    i ∈ (scan code).unclosedOpens ↔ IsUnclosed code i := by
  rw [Scan.unclosedOpens, List.mem_reverse, (Scan.tracks_scan code).mem_pending]

/-- The stray brackets and then the unclosed ones are in ascending order. -/
theorem pairwise_unmatched (code : List Instruction) :
    ((scan code).strayCloses ++ (scan code).unclosedOpens).Pairwise (· < ·) := by
  have htracks := Scan.tracks_scan code
  refine List.pairwise_append.2 ⟨?_, ?_, ?_⟩
  · exact List.pairwise_reverse.2 htracks.strays_sorted
  · exact List.pairwise_reverse.2 htracks.pending_sorted
  · intro i hi j hj
    exact isStray_lt_isUnclosed (mem_strayCloses.1 hi) (mem_unclosedOpens.1 hj)

/-- Every fault names the bracket that it is about. -/
theorem map_index?_faults (code : List Instruction) :
    (faults code).map Fault.index? =
      ((scan code).strayCloses ++ (scan code).unclosedOpens).map
        fun i : Nat => some (i : Int) := by
  simp [faults, Scan.faults, Fault.index?, Function.comp_def]

theorem mem_faults {f : Fault} :
    f ∈ faults code ↔
      (∃ i : Nat, f = .unmatchedClose i ∧ IsStray code i) ∨
        ∃ i : Nat, f = .unmatchedOpen i ∧ IsUnclosed code i := by
  simp only [faults, Scan.faults, List.mem_append, List.mem_map, mem_strayCloses,
    mem_unclosedOpens, @eq_comm _ f, and_comm]

/-- Code is refused with the first fault of the list, if there is one. -/
theorem resolve_eq_error_iff_head? {f : Fault} :
    resolve code = .error f ↔ (faults code).head? = some f := by
  rw [resolve, Scan.table, faults, Scan.faults]
  cases hs : (scan code).strayCloses with
  | cons stray rest => simp
  | nil =>
      cases ho : (scan code).unclosedOpens with
      | cons opening rest => simp
      | nil => simp

/-- The first fault is the one at the smallest index. -/
theorem head?_faults_iff {f : Fault} :
    (faults code).head? = some f ↔
      f ∈ faults code ∧
        ∃ i, f.index? = some i ∧ ∀ g ∈ faults code, ∃ j, g.index? = some j ∧ i ≤ j := by
  have hindex := map_index?_faults code
  have hsorted := pairwise_unmatched code
  generalize (scan code).strayCloses ++ (scan code).unclosedOpens = indices at hindex hsorted
  cases hfaults : faults code with
  | nil => simp
  | cons first others =>
      rw [hfaults] at hindex
      cases indices with
      | nil => cases hindex
      | cons least indices =>
          obtain ⟨hfirst, hothers⟩ := List.cons.inj hindex
          obtain ⟨hleast, -⟩ := List.pairwise_cons.1 hsorted
          have hlater : ∀ g ∈ others, ∃ j, g.index? = some j ∧ (least : Int) < j := by
            intro g hg
            have hmem : g.index? ∈ others.map Fault.index? := List.mem_map_of_mem hg
            rw [hothers, List.mem_map] at hmem
            obtain ⟨j, hj, hgj⟩ := hmem
            exact ⟨j, hgj.symm, by exact_mod_cast hleast j hj⟩
          rw [List.head?_cons, Option.some.injEq]
          constructor
          · rintro rfl
            refine ⟨List.mem_cons_self, least, hfirst, fun g hg => ?_⟩
            rcases List.mem_cons.1 hg with rfl | hg
            · exact ⟨least, hfirst, le_rfl⟩
            · obtain ⟨j, hj, hlt⟩ := hlater g hg
              exact ⟨j, hj, hlt.le⟩
          · rintro ⟨hf, i, hi, hall⟩
            rcases List.mem_cons.1 hf with rfl | hf
            · rfl
            · obtain ⟨j, hj, hlt⟩ := hlater f hf
              obtain ⟨j', hj', hle⟩ := hall first List.mem_cons_self
              rw [hi, Option.some.injEq] at hj
              rw [hfirst, Option.some.injEq] at hj'
              omega

end Order

section Faults

/-- **Unmatched brackets.**  The list of faults names a closing bracket if the depth
after it is below every earlier depth, an opening one if every later depth is above
the depth before it, and nothing else.  The pairs of the pass join opening brackets to
later closing ones, and every bracket is in one pair, stray or unclosed, once and in
one of them only.  The indices of the faults ascend over the whole list, so `resolve`
fails with the fault at the smallest of them. -/
theorem faults_exact (code : List Instruction) :
    (∀ i : Nat, Fault.unmatchedClose i ∈ faults code ↔
      code[i]? = some .loopClose ∧ ∀ k ≤ i, depth code (i + 1) < depth code k)
      ∧
    (∀ i : Nat, Fault.unmatchedOpen i ∈ faults code ↔
      code[i]? = some .loopOpen ∧
        ∀ k, i < k → k ≤ code.length → depth code i < depth code k)
      ∧
    (∀ f ∈ faults code, ∃ i : Nat, f = .unmatchedClose i ∨ f = .unmatchedOpen i)
      ∧
    (∀ pair ∈ (scan code).pairs, Joined code pair)
      ∧
    (endpoints (scan code).pairs ++
        ((scan code).strayCloses ++ (scan code).unclosedOpens)).Perm (bracketIndices code)
      ∧
    (faults code).map Fault.index? =
      ((scan code).strayCloses ++ (scan code).unclosedOpens).map
        (fun i : Nat => some (i : Int))
      ∧
    ((scan code).strayCloses ++ (scan code).unclosedOpens).Pairwise (· < ·)
      ∧
    (∀ f, resolve code = .error f ↔
      f ∈ faults code ∧
        ∃ i, f.index? = some i ∧
          ∀ g ∈ faults code, ∃ j, g.index? = some j ∧ i ≤ j) := by
  refine ⟨fun i => ?_, fun i => ?_, fun f hf => ?_, fun pair => joined_of_mem_pairs, ?_,
    map_index?_faults code, pairwise_unmatched code, fun f => ?_⟩
  · simp [mem_faults, IsStray]
  · simp [mem_faults, IsUnclosed]
  · rcases mem_faults.1 hf with ⟨i, rfl, -⟩ | ⟨i, rfl, -⟩
    · exact ⟨i, Or.inl rfl⟩
    · exact ⟨i, Or.inr rfl⟩
  · have hreverse : ((scan code).strayCloses ++ (scan code).unclosedOpens).Perm
        ((scan code).strays ++ (scan code).pending) :=
      (List.reverse_perm _).append (List.reverse_perm _)
    exact (hreverse.append_left _).trans (perm_accounted code)
  · rw [resolve_eq_error_iff_head?, head?_faults_iff]

/-- The code `[]]+[[]`: a pair, a stray bracket, and an unclosed one before a pair. -/
theorem faults_exact_mixed :
    faults [.loopOpen, .loopClose, .loopClose, .increment, .loopOpen, .loopOpen,
        .loopClose] = [.unmatchedClose 2, .unmatchedOpen 4] ∧
      resolve [.loopOpen, .loopClose, .loopClose, .increment, .loopOpen, .loopOpen,
        .loopClose] = .error (.unmatchedClose 2) := by
  have hfaults : faults [.loopOpen, .loopClose, .loopClose, .increment, .loopOpen,
      .loopOpen, .loopClose] = [.unmatchedClose 2, .unmatchedOpen 4] := rfl
  obtain ⟨-, -, -, -, -, -, -, hfirst⟩ := faults_exact [.loopOpen, .loopClose, .loopClose,
    .increment, .loopOpen, .loopOpen, .loopClose]
  refine ⟨hfaults, (hfirst _).2 ?_⟩
  rw [hfaults]
  refine ⟨List.mem_cons_self, 2, rfl, ?_⟩
  simp [Fault.index?]

end Faults

end Loop
end TapeLang
