import Mathlib.Tactic
import Mathlib.Order.Bounds.Defs
import TapeLang.Proofs.BracketDepth
import TapeLang.Proofs.LoopTree

/-!
# The grammar of the loop brackets

**Input.** A sequence of instructions.
**Results.** `resolve_decides_grammar`: the table is built for the code that the
grammar `B ::= empty | c B | [ B ] B` generates, and for no other.  All other
code is refused with the bracket that counting names: the first one at which a
prefix has more closing than opening brackets, else the first opening bracket
from which on the opening brackets stay ahead.
-/

namespace TapeLang
namespace Loop

/-- Code generated by `B ::= empty | c B | [ B ] B`, where `c` is no bracket. -/
inductive Balanced : List Instruction → Prop
  | empty : Balanced []
  | plain {c : Instruction} {rest : List Instruction}
      (hopen : c ≠ .loopOpen)
      (hclose : c ≠ .loopClose)
      (hrest : Balanced rest) :
      Balanced (c :: rest)
  | loop {body rest : List Instruction}
      (hbody : Balanced body)
      (hrest : Balanced rest) :
      Balanced (.loopOpen :: (body ++ .loopClose :: rest))

/-- Code with more closing than opening brackets. -/
def Overclosed (part : List Instruction) : Prop :=
  part.count .loopOpen < part.count .loopClose

/-- Code with more opening than closing brackets. -/
def Overopened (part : List Instruction) : Prop :=
  part.count .loopClose < part.count .loopOpen

instance (part : List Instruction) : Decidable (Overclosed part) :=
  inferInstanceAs (Decidable (_ < _))

instance (part : List Instruction) : Decidable (Overopened part) :=
  inferInstanceAs (Decidable (_ < _))

/-- The instructions from index `i` to index `j`, both included. -/
def segment (code : List Instruction) (i j : Nat) : List Instruction :=
  (code.take (j + 1)).drop i

section Grammar

/-- The code of a tree is generated. -/
theorem balanced_flatten (b : Block) : Balanced b.flatten := by
  induction b with
  | done => exact .empty
  | primitive p rest ih =>
      exact .plain p.instruction_ne_loopOpen p.instruction_ne_loopClose ih
  | loop body rest ihBody ihRest => exact .loop ihBody ihRest

/-- Generated code is the code of a tree. -/
theorem Balanced.exists_flatten {code : List Instruction} (h : Balanced code) :
    ∃ b : Block, b.flatten = code := by
  induction h with
  | empty => exact ⟨.done, rfl⟩
  | plain hopen hclose _ ih =>
      obtain ⟨rest, rfl⟩ := ih
      obtain ⟨p, rfl⟩ := Primitive.exists_instruction_eq hopen hclose
      exact ⟨.primitive p rest, rfl⟩
  | loop _ _ ihBody ihRest =>
      obtain ⟨body, rfl⟩ := ihBody
      obtain ⟨rest, rfl⟩ := ihRest
      exact ⟨.loop body rest, rfl⟩

/-- The code that is accepted is the code that is generated. -/
theorem exists_resolve_iff_balanced (code : List Instruction) :
    (∃ table, resolve code = .ok table) ↔ Balanced code := by
  constructor
  · rintro ⟨table, h⟩
    obtain ⟨b, rfl⟩ := exists_flatten_eq h
    exact balanced_flatten b
  · intro h
    obtain ⟨b, rfl⟩ := h.exists_flatten
    exact ⟨_, b.resolve_flatten⟩

end Grammar

section Counting

variable {code : List Instruction}

theorem overclosed_take_iff {k : Nat} :
    Overclosed (code.take k) ↔ depth code k < 0 := by
  unfold Overclosed depth
  omega

theorem overopened_segment_iff {i j : Nat} (hij : i ≤ j) :
    Overopened (segment code i j) ↔ depth code i < depth code (j + 1) := by
  have hsplit : code.take (j + 1) = code.take i ++ segment code i j := by
    conv_lhs => rw [← List.take_append_drop i (code.take (j + 1))]
    rw [List.take_take, Nat.min_eq_left (by omega), segment]
  unfold Overopened depth
  rw [hsplit, List.count_append, List.count_append]
  omega

/-- Some prefix is overclosed if and only if some depth is negative. -/
theorem exists_prefix_overclosed_iff :
    (∃ part, part <+: code ∧ Overclosed part) ↔
      ∃ i < code.length, depth code (i + 1) < 0 := by
  constructor
  · rintro ⟨part, hprefix, hpart⟩
    rw [List.prefix_iff_eq_take.1 hprefix, overclosed_take_iff] at hpart
    have hle := hprefix.length_le
    cases hlen : part.length with
    | zero =>
        rw [hlen, depth_zero] at hpart
        omega
    | succ i =>
        rw [hlen] at hpart
        exact ⟨i, by omega, hpart⟩
  · rintro ⟨i, -, hi⟩
    exact ⟨code.take (i + 1), List.take_prefix _ _, overclosed_take_iff.2 hi⟩

/-- A negative depth comes with a stray bracket at or before it: where the depth is negative
for the first time, it has a new minimum. -/
theorem exists_isStray_of_depth_neg {i : Nat} (hi : i < code.length)
    (h : depth code (i + 1) < 0) :
    ∃ j ≤ i, IsStray code j ∧ depth code (j + 1) < 0 := by
  induction i using Nat.strong_induction_on with
  | _ i ih =>
      by_cases hearlier : ∃ j < i, depth code (j + 1) < 0
      · obtain ⟨j, hj, hneg⟩ := hearlier
        obtain ⟨l, hl, hstray⟩ := ih j hj (by omega) hneg
        exact ⟨l, by omega, hstray⟩
      · push Not at hearlier
        have hbefore : ∀ k ≤ i, 0 ≤ depth code k := by
          intro k hk
          cases k with
          | zero => rw [depth_zero]
          | succ k => exact hearlier k (by omega)
        obtain ⟨x, hx⟩ : ∃ x, code[i]? = some x :=
          ⟨code[i], List.getElem?_eq_getElem hi⟩
        have hstep := depth_succ hx
        have hlast := hbefore i le_rfl
        have hclose : x = .loopClose := by
          cases x with
          | loopClose => rfl
          | _ =>
              simp only [Instruction.tilt] at hstep
              omega
        subst hclose
        refine ⟨i, le_rfl, ⟨hx, fun k hk => ?_⟩, h⟩
        have := hbefore k hk
        omega

/-- The first stray bracket is the first one that leaves a prefix overclosed. -/
theorem isLeast_overclosed_of_isLeast_isStray {i : Nat}
    (h : IsLeast {i | IsStray code i} i) :
    IsLeast {i | i < code.length ∧ Overclosed (segment code 0 i)} i := by
  have hseg : ∀ j, Overclosed (segment code 0 j) ↔ depth code (j + 1) < 0 := by
    intro j
    rw [segment, List.drop_zero, overclosed_take_iff]
  obtain ⟨hstray, hleast⟩ := h
  constructor
  · refine ⟨hstray.lt_length, (hseg i).2 ?_⟩
    have := hstray.2 0 (Nat.zero_le i)
    rwa [depth_zero] at this
  · rintro j ⟨hj, hover⟩
    obtain ⟨l, hl, hlstray, -⟩ := exists_isStray_of_depth_neg hj ((hseg j).1 hover)
    exact (hleast hlstray).trans hl

/-- An opening bracket is unclosed if and only if every segment that begins with
it is overopened. -/
theorem isUnclosed_iff_segments {i : Nat} :
    IsUnclosed code i ↔
      code[i]? = some .loopOpen ∧
        ∀ j, i ≤ j → j < code.length → Overopened (segment code i j) := by
  constructor
  · rintro ⟨hopen, hdepth⟩
    refine ⟨hopen, fun j hij hj => ?_⟩
    exact (overopened_segment_iff hij).2 (hdepth (j + 1) (by omega) (by omega))
  · rintro ⟨hopen, hsegments⟩
    refine ⟨hopen, fun k hik hk => ?_⟩
    obtain ⟨j, rfl⟩ : ∃ j, k = j + 1 := ⟨k - 1, by omega⟩
    exact (overopened_segment_iff (by omega)).1 (hsegments j (by omega) (by omega))

end Counting

section Faults

variable {code : List Instruction}

/-- A descending list read backwards begins with its least member. -/
theorem isLeast_of_reverse_eq_cons {xs rest : List Nat} {i : Nat}
    (hsorted : xs.Pairwise (· > ·)) (h : xs.reverse = i :: rest) :
    IsLeast {j | j ∈ xs} i := by
  have hmem : ∀ j, j ∈ xs ↔ j ∈ i :: rest := by
    intro j
    rw [← h, List.mem_reverse]
  have hasc : (i :: rest).Pairwise (· < ·) := by
    rw [← h]
    exact List.pairwise_reverse.2 hsorted
  refine ⟨(hmem i).2 List.mem_cons_self, fun j hj => ?_⟩
  rcases List.mem_cons.1 ((hmem j).1 hj) with rfl | hrest
  · exact le_rfl
  · exact (List.rel_of_pairwise_cons hasc hrest).le

/-- Code with a stray bracket is refused with the first of them. -/
theorem resolve_of_strays (h : (scan code).strays ≠ []) :
    ∃ i : Nat, resolve code = .error (.unmatchedClose i) ∧
      IsLeast {i | IsStray code i} i := by
  have htracks := Scan.tracks_scan code
  cases hrev : (scan code).strays.reverse with
  | nil => exact absurd (List.reverse_eq_nil_iff.1 hrev) h
  | cons i rest =>
      refine ⟨i, ?_, ?_⟩
      · simp [resolve, Scan.table, Scan.strayCloses, hrev]
      · have hleast := isLeast_of_reverse_eq_cons htracks.strays_sorted hrev
        simpa only [htracks.mem_strays] using hleast

/-- Code with no stray bracket but a pending loop is refused with the first
unclosed bracket. -/
theorem resolve_of_pending (hstrays : (scan code).strays = [])
    (h : (scan code).pending ≠ []) :
    ∃ i : Nat, resolve code = .error (.unmatchedOpen i) ∧
      IsLeast {i | IsUnclosed code i} i := by
  have htracks := Scan.tracks_scan code
  cases hrev : (scan code).pending.reverse with
  | nil => exact absurd (List.reverse_eq_nil_iff.1 hrev) h
  | cons i rest =>
      refine ⟨i, ?_, ?_⟩
      · simp [resolve, Scan.table, Scan.strayCloses, Scan.unclosedOpens, hstrays, hrev]
      · have hleast := isLeast_of_reverse_eq_cons htracks.pending_sorted hrev
        simpa only [htracks.mem_pending] using hleast

/-- The pass finds a stray bracket if and only if some prefix is overclosed. -/
theorem strays_ne_nil_iff :
    (scan code).strays ≠ [] ↔ ∃ part, part <+: code ∧ Overclosed part := by
  have htracks := Scan.tracks_scan code
  rw [exists_prefix_overclosed_iff]
  constructor
  · intro h
    obtain ⟨i, hi⟩ := List.exists_mem_of_ne_nil _ h
    have hstray := (htracks.mem_strays i).1 hi
    have hneg := hstray.2 0 (Nat.zero_le i)
    rw [depth_zero] at hneg
    exact ⟨i, hstray.lt_length, hneg⟩
  · rintro ⟨i, hi, hneg⟩
    obtain ⟨j, -, hstray, -⟩ := exists_isStray_of_depth_neg hi hneg
    exact List.ne_nil_of_mem ((htracks.mem_strays j).2 hstray)

/-- **The bracket grammar.**  `resolve` accepts what the grammar generates, and
names the bracket at which counting goes wrong in all other code. -/
theorem resolve_decides_grammar (code : List Instruction) :
    ((∃ table, resolve code = .ok table) ↔ Balanced code)
      ∧
    (¬ Balanced code →
      (∃ part, part <+: code ∧ Overclosed part) →
      ∃ i : Nat, resolve code = .error (.unmatchedClose i) ∧
        IsLeast {i | i < code.length ∧ Overclosed (segment code 0 i)} i)
      ∧
    (¬ Balanced code →
      (¬ ∃ part, part <+: code ∧ Overclosed part) →
      ∃ i : Nat, resolve code = .error (.unmatchedOpen i) ∧
        IsLeast
          {i | code[i]? = some .loopOpen ∧
            ∀ j, i ≤ j → j < code.length → Overopened (segment code i j)} i) := by
  refine ⟨exists_resolve_iff_balanced code, ?_, ?_⟩
  · intro _ hprefix
    obtain ⟨i, hresolve, hleast⟩ := resolve_of_strays (strays_ne_nil_iff.2 hprefix)
    exact ⟨i, hresolve, isLeast_overclosed_of_isLeast_isStray hleast⟩
  · intro hbalanced hprefix
    have hstrays : (scan code).strays = [] := by
      by_contra h
      exact hprefix (strays_ne_nil_iff.1 h)
    have hpending : (scan code).pending ≠ [] := by
      intro h
      exact hbalanced
        ((exists_resolve_iff_balanced code).1
          ⟨_, resolve_eq_ok_iff.2 ⟨hstrays, h, rfl⟩⟩)
    obtain ⟨i, hresolve, hleast⟩ := resolve_of_pending hstrays hpending
    refine ⟨i, hresolve, ?_⟩
    simpa only [isUnclosed_iff_segments] using hleast

/-- A closed loop inside does not hide that the outer one is open. -/
theorem resolve_decides_grammar_outer_open :
    ¬ Balanced [.loopOpen, .loopOpen, .loopClose] ∧
      (¬ ∃ part, part <+: [.loopOpen, .loopOpen, .loopClose] ∧ Overclosed part) ∧
      ∃ i : Nat, resolve [.loopOpen, .loopOpen, .loopClose] = .error (.unmatchedOpen i) ∧
        IsLeast
          {i | [.loopOpen, .loopOpen, .loopClose][i]? = some Instruction.loopOpen ∧
            ∀ j, i ≤ j → j < [Instruction.loopOpen, .loopOpen, .loopClose].length →
              Overopened (segment [.loopOpen, .loopOpen, .loopClose] i j)} i := by
  have hbalanced : ¬ Balanced [.loopOpen, .loopOpen, .loopClose] := by
    intro h
    obtain ⟨table, htable⟩ := (exists_resolve_iff_balanced _).2 h
    cases htable
  have hpart :
      ¬ ∃ part, part <+: [.loopOpen, .loopOpen, .loopClose] ∧ Overclosed part := by
    intro h
    exact strays_ne_nil_iff.2 h rfl
  exact ⟨hbalanced, hpart, (resolve_decides_grammar _).2.2 hbalanced hpart⟩

end Faults

end Loop
end TapeLang
