import Mathlib.Tactic
import TapeLang.Proofs.BracketFaults

/-!
# Repairing the brackets of a code

Code whose brackets do not match can be repaired by deleting instructions.

**Input.** A sequence of instructions, and a set of indices.
**Algorithm.** `without` deletes the instructions at the indices, and `renumber`
says where the others come to stand.  The pass over what is left of a code after
its unmatched brackets are deleted `Mirrors` the pass over the code itself: both
close the same loops, and neither a stray bracket nor an unclosed one is left.
**Results.** `faults_minimum_repair`: deleting the brackets that `faults` names
repairs the code and keeps its jumps, and no smaller deletion repairs it.  For the
second part, deleting one instruction moves a depth by one at most, while the
depths of the code have to be moved up by its stray brackets at their lowest point
and down by its unclosed ones from there on.
-/

namespace TapeLang
namespace Loop

open JumpTable

section Deletion

variable {removed : Finset Nat}

/-- The code without the instructions at some indices. -/
def without (removed : Finset Nat) (code : List Instruction) : List Instruction :=
  (code.zipIdx.filter fun x => x.2 ∉ removed).map Prod.fst

/-- How many of the first `i` instructions are kept: the new index of the
instruction at index `i`, if it is kept. -/
def renumber (removed : Finset Nat) (i : Nat) : Nat :=
  (Finset.range i \ removed).card

theorem without_nil (removed : Finset Nat) : without removed [] = [] :=
  rfl

theorem without_snoc (removed : Finset Nat) (code : List Instruction) (x : Instruction) :
    without removed (code ++ [x]) =
      without removed code ++ if code.length ∈ removed then [] else [x] := by
  by_cases h : code.length ∈ removed
  · simp [without, List.zipIdx_append, h]
  · simp [without, List.zipIdx_append, h]

@[simp] theorem renumber_zero (removed : Finset Nat) : renumber removed 0 = 0 := by
  simp [renumber]

theorem renumber_succ_of_mem {i : Nat} (h : i ∈ removed) :
    renumber removed (i + 1) = renumber removed i := by
  rw [renumber, Finset.range_add_one, Finset.insert_sdiff_of_mem _ h, renumber]

theorem renumber_succ_of_notMem {i : Nat} (h : i ∉ removed) :
    renumber removed (i + 1) = renumber removed i + 1 := by
  rw [renumber, Finset.range_add_one, Finset.insert_sdiff_of_notMem _ h,
    Finset.card_insert_of_notMem (by simp), renumber]

theorem renumber_mono (removed : Finset Nat) {i j : Nat} (h : i ≤ j) :
    renumber removed i ≤ renumber removed j :=
  Finset.card_le_card (Finset.sdiff_subset_sdiff (Finset.range_mono h) le_rfl)

/-- What is not kept was removed. -/
theorem le_renumber_add_card (removed : Finset Nat) (k : Nat) :
    k ≤ renumber removed k + removed.card := by
  have hsplit : (Finset.range k \ removed).card + (Finset.range k ∩ removed).card = k := by
    rw [Finset.card_sdiff_add_card_inter, Finset.card_range]
  have hinter : (Finset.range k ∩ removed).card ≤ removed.card :=
    Finset.card_le_card Finset.inter_subset_right
  rw [renumber]
  omega

theorem length_without (removed : Finset Nat) (code : List Instruction) :
    (without removed code).length = renumber removed code.length := by
  induction code using List.reverseRecOn with
  | nil => simp [without_nil]
  | append_singleton code x ih =>
      rw [without_snoc, List.length_append, ih, List.length_append, List.length_singleton]
      by_cases h : code.length ∈ removed
      · simp [h, renumber_succ_of_mem]
      · simp [h, renumber_succ_of_notMem]

/-- An instruction that is kept stands at its new index. -/
theorem getElem?_without {i : Nat} (hi : i ∉ removed) (code : List Instruction) :
    (without removed code)[renumber removed i]? = code[i]? := by
  induction code using List.reverseRecOn with
  | nil => simp [without_nil]
  | append_singleton code x ih =>
      rcases Nat.lt_trichotomy i code.length with hlt | rfl | hgt
      · have hkept : renumber removed i < (without removed code).length := by
          have hmono := renumber_mono removed (Nat.succ_le_of_lt hlt)
          rw [renumber_succ_of_notMem hi] at hmono
          rw [length_without]
          omega
        rw [without_snoc, List.getElem?_append_left hkept, ih,
          List.getElem?_append_left hlt]
      · rw [without_snoc, if_neg hi, ← length_without, List.getElem?_concat_length,
          List.getElem?_concat_length]
      · have hlength : (code ++ [x]).length ≤ i := by
          rw [List.length_append, List.length_singleton]
          omega
        rw [List.getElem?_eq_none hlength, List.getElem?_eq_none]
        rw [length_without]
        exact renumber_mono removed hlength

end Deletion

/-- The indices of the brackets that the faults of a code are about. -/
def reported (code : List Instruction) : Finset Nat :=
  ((faults code).filterMap fun f => f.index?.map Int.toNat).toFinset

section Reported

variable {code : List Instruction}

theorem filterMap_index?_faults (code : List Instruction) :
    ((faults code).filterMap fun f => f.index?.map Int.toNat) =
      (scan code).strayCloses ++ (scan code).unclosedOpens := by
  simp [faults, Scan.faults, List.filterMap_map, Fault.index?]

theorem mem_reported {i : Nat} :
    i ∈ reported code ↔ i ∈ (scan code).strays ∨ i ∈ (scan code).pending := by
  rw [reported, filterMap_index?_faults, List.mem_toFinset, List.mem_append,
    Scan.strayCloses, Scan.unclosedOpens, List.mem_reverse, List.mem_reverse]

theorem length_faults (code : List Instruction) :
    (faults code).length = (scan code).strays.length + (scan code).pending.length := by
  simp [faults, Scan.faults, Scan.strayCloses, Scan.unclosedOpens]

/-- No bracket is named twice. -/
theorem card_reported (code : List Instruction) :
    (reported code).card = (faults code).length := by
  have hnodup : ((scan code).strayCloses ++ (scan code).unclosedOpens).Nodup :=
    (pairwise_unmatched code).imp Nat.ne_of_lt
  rw [reported, filterMap_index?_faults, List.toFinset_card_of_nodup hnodup, length_faults]
  simp [Scan.strayCloses, Scan.unclosedOpens]

/-- A bracket with a partner is not named. -/
theorem notMem_reported_of_mem_pairs {pair : Nat × Nat} (h : pair ∈ (scan code).pairs) :
    pair.1 ∉ reported code ∧ pair.2 ∉ reported code := by
  have hdisjoint := List.disjoint_of_nodup_append (nodup_accounted code)
  have hend : ∀ i, i = pair.1 ∨ i = pair.2 → i ∉ reported code := by
    intro i hi hreported
    refine hdisjoint (mem_endpoints.2 ⟨pair, h, hi⟩) ?_
    rw [List.mem_append]
    exact mem_reported.1 hreported
  exact ⟨hend _ (Or.inl rfl), hend _ (Or.inr rfl)⟩

/-- Only brackets are named. -/
theorem isBracket_of_mem_reported {i : Nat} (h : i ∈ reported code) : IsBracket code i := by
  have htracks := Scan.tracks_scan code
  rcases mem_reported.1 h with hstray | hpending
  · exact Or.inr ((htracks.mem_strays i).1 hstray).1
  · exact Or.inl ((htracks.mem_pending i).1 hpending).1

end Reported

namespace Scan

/-- One pass mirrors another that also meets instructions that were removed: it has
nothing stray, and pairs and pending loops are the same up to their new numbers. -/
structure Mirrors (removed : Finset Nat) (s kept : Scan) : Prop where
  position_eq : kept.position = renumber removed s.position
  pending_eq :
    kept.pending = (s.pending.filter (· ∉ removed)).map (renumber removed)
  pairs_eq :
    kept.pairs = s.pairs.map (Prod.map (renumber removed) (renumber removed))
  strays_eq : kept.strays = []

namespace Mirrors

variable {removed : Finset Nat} {s kept : Scan}

theorem visit_plain (h : Mirrors removed s kept) (hkeep : s.position ∉ removed)
    {x : Instruction} (hopen : x ≠ .loopOpen) (hclose : x ≠ .loopClose) :
    Mirrors removed (s.visit x) (kept.visit x) := by
  have hvisit : ∀ t : Scan, t.visit x = { t with position := t.position + 1 } := by
    intro t
    cases x with
    | loopOpen => exact absurd rfl hopen
    | loopClose => exact absurd rfl hclose
    | _ => rfl
  rw [hvisit, hvisit]
  refine ⟨?_, h.pending_eq, h.pairs_eq, h.strays_eq⟩
  simp [h.position_eq, renumber_succ_of_notMem hkeep]

/-- An opening bracket that is kept is pending in both passes. -/
theorem visit_open (h : Mirrors removed s kept) (hkeep : s.position ∉ removed) :
    Mirrors removed (s.visit .loopOpen) (kept.visit .loopOpen) := by
  refine ⟨?_, ?_, h.pairs_eq, h.strays_eq⟩
  · simp [visit, h.position_eq, renumber_succ_of_notMem hkeep]
  · simp [visit, h.position_eq, h.pending_eq, hkeep]

/-- An opening bracket that is removed is pending in one pass only. -/
theorem visit_removed_open (h : Mirrors removed s kept) (hgone : s.position ∈ removed) :
    Mirrors removed (s.visit .loopOpen) kept := by
  refine ⟨?_, ?_, h.pairs_eq, h.strays_eq⟩
  · simp [visit, h.position_eq, renumber_succ_of_mem hgone]
  · simp [visit, h.pending_eq, hgone]

/-- A stray bracket that is removed is met by one pass only. -/
theorem visit_removed_stray (h : Mirrors removed s kept) (hgone : s.position ∈ removed)
    (hp : s.pending = []) :
    Mirrors removed (s.visit .loopClose) kept := by
  refine ⟨?_, ?_, ?_, h.strays_eq⟩
  · simp [visit, hp, h.position_eq, renumber_succ_of_mem hgone]
  · simp [visit, hp, h.pending_eq]
  · simp [visit, hp, h.pairs_eq]

/-- A closing bracket that is kept closes the same loop in both passes. -/
theorem visit_close (h : Mirrors removed s kept) (hkeep : s.position ∉ removed)
    {opening : Nat} {outer : List Nat} (hp : s.pending = opening :: outer)
    (hopening : opening ∉ removed) :
    Mirrors removed (s.visit .loopClose) (kept.visit .loopClose) := by
  have hpending : kept.pending =
      renumber removed opening :: (outer.filter (· ∉ removed)).map (renumber removed) := by
    simp [h.pending_eq, hp, hopening]
  refine ⟨?_, ?_, ?_, ?_⟩
  · simp [visit, hp, hpending, h.position_eq, renumber_succ_of_notMem hkeep]
  · simp [visit, hp, hpending]
  · simp [visit, hp, hpending, h.position_eq, h.pairs_eq]
  · simp [visit, hpending, h.strays_eq]

end Mirrors

/-- What is stray stays stray, and what is closed stays closed. -/
theorem subset_foldl_visit (s : Scan) (rest : List Instruction) :
    s.strays ⊆ (rest.foldl visit s).strays ∧ s.pairs ⊆ (rest.foldl visit s).pairs := by
  induction rest generalizing s with
  | nil => exact ⟨List.Subset.refl _, List.Subset.refl _⟩
  | cons x rest ih =>
      have hvisit : s.strays ⊆ (s.visit x).strays ∧ s.pairs ⊆ (s.visit x).pairs := by
        cases x with
        | loopClose =>
            cases hp : s.pending with
            | nil => simp [visit, hp]
            | cons opening outer => simp [visit, hp]
        | _ => simp [visit]
      obtain ⟨hstrays, hpairs⟩ := ih (s.visit x)
      exact ⟨List.Subset.trans hvisit.1 hstrays, List.Subset.trans hvisit.2 hpairs⟩

end Scan

section Repair

/-- The pass over the repaired code mirrors the pass over the code all the way. -/
theorem mirrors_scan {code part rest : List Instruction} (h : part ++ rest = code) :
    Scan.Mirrors (reported code) (scan part) (scan (without (reported code) part)) := by
  induction part using List.reverseRecOn generalizing rest with
  | nil => exact ⟨by simp [without_nil, Scan.start], rfl, rfl, rfl⟩
  | append_singleton part x ih =>
      have hsplit : part ++ x :: rest = code := by simpa using h
      have hmirrors := ih hsplit
      have hlength : (scan part).position = part.length :=
        (Scan.tracks_scan part).position_eq
      have hx : code[part.length]? = some x := by simp [← hsplit]
      have hscan : scan code = rest.foldl Scan.visit ((scan part).visit x) := by
        rw [← hsplit, scan_append, List.foldl_cons]
      obtain ⟨hstrays, hpairs⟩ := ((scan part).visit x).subset_foldl_visit rest
      rw [← hscan] at hstrays hpairs
      rw [without_snoc, scan_append, List.foldl_cons, List.foldl_nil, ← hlength]
      by_cases hopen : x = .loopOpen
      · subst hopen
        by_cases hgone : (scan part).position ∈ reported code
        · rw [if_pos hgone, List.append_nil]
          exact hmirrors.visit_removed_open hgone
        · rw [if_neg hgone, scan_append]
          exact hmirrors.visit_open hgone
      by_cases hclose : x = .loopClose
      · subst hclose
        cases hp : (scan part).pending with
        | nil =>
            have hstray : (scan part).position ∈ (scan code).strays :=
              hstrays (by simp [Scan.visit, hp])
            have hgone := mem_reported.2 (Or.inl hstray)
            rw [if_pos hgone, List.append_nil]
            exact hmirrors.visit_removed_stray hgone hp
        | cons opening outer =>
            have hpair : (opening, (scan part).position) ∈ (scan code).pairs :=
              hpairs (by simp [Scan.visit, hp])
            obtain ⟨hopening, hkeep⟩ := notMem_reported_of_mem_pairs hpair
            rw [if_neg hkeep, scan_append]
            exact hmirrors.visit_close hkeep hp hopening
      · have hkeep : (scan part).position ∉ reported code := by
          intro hgone
          have hbracket := isBracket_of_mem_reported hgone
          rw [hlength, IsBracket, hx] at hbracket
          simp [hopen, hclose] at hbracket
        rw [if_neg hkeep, scan_append]
        exact hmirrors.visit_plain hkeep hopen hclose

/-- The repaired code is accepted, with the pairs of the code at their new places. -/
theorem resolve_without_reported (code : List Instruction) :
    resolve (without (reported code) code) =
      .ok (.ofPairs ((scan code).pairs.map
        (Prod.map (renumber (reported code)) (renumber (reported code))))) := by
  have hmirrors := mirrors_scan (List.append_nil code)
  refine resolve_eq_ok_iff.2 ⟨hmirrors.strays_eq, ?_, by rw [hmirrors.pairs_eq]⟩
  have hnone : (scan code).pending.filter (· ∉ reported code) = [] := by
    rw [List.filter_eq_nil_iff]
    intro i hi
    simp [mem_reported, hi]
  rw [hmirrors.pending_eq, hnone, List.map_nil]

/-- The jumps of the repaired code are the jumps of the pass over the code, renumbered. -/
theorem target?_without_reported {code : List Instruction} {table : JumpTable}
    (h : resolve (without (reported code) code) = .ok table) (i j : Int) :
    table.target? i = some j ↔
      ∃ a b : Nat, (JumpTable.ofPairs (scan code).pairs).target? a = some (b : Int) ∧
        i = renumber (reported code) a ∧ j = renumber (reported code) b := by
  have hpairs := (mirrors_scan (List.append_nil code)).pairs_eq
  have hnodup := nodup_endpoints_scan (without (reported code) code)
  rw [hpairs] at hnodup
  rw [resolve_without_reported, Except.ok.injEq] at h
  subst h
  simp only [target?_ofPairs_iff hnodup, target?_ofPairs_iff (nodup_endpoints_scan code)]
  constructor
  · rintro ⟨pair, hpair, hsides⟩
    obtain ⟨old, hold, rfl⟩ := List.mem_map.1 hpair
    rcases hsides with ⟨rfl, rfl⟩ | ⟨rfl, rfl⟩
    · exact ⟨old.1, old.2, ⟨old, hold, Or.inl ⟨rfl, rfl⟩⟩, rfl, rfl⟩
    · exact ⟨old.2, old.1, ⟨old, hold, Or.inr ⟨rfl, rfl⟩⟩, rfl, rfl⟩
  · rintro ⟨a, b, ⟨old, hold, hsides⟩, rfl, rfl⟩
    refine ⟨_, List.mem_map_of_mem hold, ?_⟩
    rcases hsides with ⟨ha, hb⟩ | ⟨ha, hb⟩
    · obtain rfl := Int.ofNat_inj.1 ha
      obtain rfl := Int.ofNat_inj.1 hb
      exact Or.inl ⟨rfl, rfl⟩
    · obtain rfl := Int.ofNat_inj.1 ha
      obtain rfl := Int.ofNat_inj.1 hb
      exact Or.inr ⟨rfl, rfl⟩

end Repair

section Counting

variable {code : List Instruction}

/-- By the end of a code the unclosed brackets have raised the depth and the stray
ones have lowered it. -/
theorem depth_length (code : List Instruction) :
    depth code code.length = (scan code).pending.length - (scan code).strays.length := by
  induction code using List.reverseRecOn with
  | nil => simp [Scan.start]
  | append_singleton code x ih =>
      rw [List.length_append, List.length_singleton, depth_snoc, ih, scan_append,
        List.foldl_cons, List.foldl_nil]
      cases x with
      | loopOpen =>
          simp only [Scan.visit, Instruction.tilt, List.length_cons]
          omega
      | loopClose =>
          cases hp : (scan code).pending with
          | nil =>
              simp only [Scan.visit, hp, Instruction.tilt, List.length_cons]
              omega
          | cons opening outer =>
              simp only [Scan.visit, hp, Instruction.tilt, List.length_cons]
              omega
      | _ => simp [Scan.visit, Instruction.tilt]

/-- At some point the depth is as low as the stray brackets can take it. -/
theorem exists_depth_eq_strays (code : List Instruction) :
    ∃ k ≤ code.length, depth code k = -((scan code).strays.length : Int) := by
  induction code using List.reverseRecOn with
  | nil => exact ⟨0, le_rfl, by simp [Scan.start]⟩
  | append_singleton code x ih =>
      obtain ⟨k, hk, hdepth⟩ := ih
      have hlength : (code ++ [x]).length = code.length + 1 := by simp
      have hold : (scan (code ++ [x])).strays = (scan code).strays →
          ∃ k ≤ (code ++ [x]).length,
            depth (code ++ [x]) k = -((scan (code ++ [x])).strays.length : Int) := by
        intro hsame
        refine ⟨k, by omega, ?_⟩
        rw [depth_append_of_le hk, hsame, hdepth]
      rw [scan_append, List.foldl_cons, List.foldl_nil] at hold ⊢
      cases x with
      | loopClose =>
          cases hp : (scan code).pending with
          | nil =>
              refine ⟨code.length + 1, by omega, ?_⟩
              rw [depth_snoc, depth_length, hp]
              simp only [Scan.visit, hp, Instruction.tilt, List.length_cons, List.length_nil]
              omega
          | cons opening outer => exact hold (by simp [Scan.visit, hp])
      | _ => exact hold rfl

/-- In accepted code no depth is negative, and the last one is zero. -/
theorem depth_of_resolve {table : JumpTable} (h : resolve code = .ok table) :
    (∀ k ≤ code.length, 0 ≤ depth code k) ∧ depth code code.length = 0 := by
  obtain ⟨hstrays, hpending, -⟩ := resolve_eq_ok_iff.1 h
  have hlast : depth code code.length = 0 := by
    rw [depth_length, hstrays, hpending]
    rfl
  refine ⟨fun k hk => ?_, hlast⟩
  have hfloor := (Scan.tracks_scan code).floor k hk
  rw [hlast, hpending] at hfloor
  simpa using hfloor

/-- By how much a deletion has moved the depth after the first `k` instructions. -/
def drift (removed : Finset Nat) (code : List Instruction) (k : Nat) : Int :=
  depth (without removed code) (renumber removed k) - depth code k

/-- An instruction that is kept moves both depths alike, and one that is removed moves
one of them by one at most. -/
theorem drift_succ (removed : Finset Nat) {k : Nat} (hk : k < code.length) :
    |drift removed code (k + 1) - drift removed code k| ≤
      1 - (renumber removed (k + 1) - renumber removed k) := by
  obtain ⟨x, hx⟩ : ∃ x, code[k]? = some x := ⟨code[k], List.getElem?_eq_getElem hk⟩
  have htilt : |x.tilt| ≤ 1 := by cases x <;> decide
  by_cases hgone : k ∈ removed
  · have hmoved : drift removed code (k + 1) - drift removed code k = -x.tilt := by
      rw [drift, drift, renumber_succ_of_mem hgone, depth_succ hx]
      omega
    rw [hmoved, abs_neg, renumber_succ_of_mem hgone]
    omega
  · have hkept : (without removed code)[renumber removed k]? = some x := by
      rw [getElem?_without hgone, hx]
    have hmoved : drift removed code (k + 1) - drift removed code k = 0 := by
      rw [drift, drift, renumber_succ_of_notMem hgone, depth_succ hkept, depth_succ hx]
      omega
    rw [hmoved, renumber_succ_of_notMem hgone]
    push_cast
    simp

/-- Between two points, a deletion moves the depth by as much as it removes, at most. -/
theorem drift_le (removed : Finset Nat) {k j : Nat} (hkj : k ≤ j) (hj : j ≤ code.length) :
    |drift removed code j - drift removed code k| ≤
      (j - renumber removed j : Int) - (k - renumber removed k) := by
  induction j, hkj using Nat.le_induction with
  | base => simp
  | succ j hkj ih =>
      have hbefore := ih (by omega)
      have hstep := drift_succ removed (show j < code.length by omega)
      have htriangle := abs_sub_le (drift removed code (j + 1)) (drift removed code j)
        (drift removed code k)
      push_cast
      omega

/-- A deletion that repairs a code removes as many instructions as the code has
faults, at least: up to the lowest depth the stray brackets have to go, and after it the
unclosed ones. -/
theorem length_faults_le_card {removed : Finset Nat} {table : JumpTable}
    (h : resolve (without removed code) = .ok table) :
    (faults code).length ≤ removed.card := by
  obtain ⟨hnonneg, hlast⟩ := depth_of_resolve h
  obtain ⟨k, hk, hlowest⟩ := exists_depth_eq_strays code
  have hend := depth_length code
  rw [length_without] at hnonneg hlast
  have hup : ((scan code).strays.length : Int) ≤ drift removed code k := by
    have := hnonneg _ (renumber_mono removed hk)
    rw [drift]
    omega
  have hdown : drift removed code code.length =
      (scan code).strays.length - (scan code).pending.length := by
    rw [drift, hlast, hend]
    omega
  have hstart : drift removed code 0 = 0 := by simp [drift]
  have hbefore := le_of_abs_le (drift_le removed (Nat.zero_le k) hk)
  have hafter := neg_le_of_abs_le (drift_le removed hk le_rfl)
  have hcard := le_renumber_add_card removed code.length
  rw [renumber_zero] at hbefore
  rw [length_faults]
  push_cast at hbefore
  omega

/-- **Minimum repair.**  Each fault names another bracket.  Deleting these brackets
leaves code that is accepted, in which every other instruction stands at its new
index, and whose table leads where the pass over the whole code leads, up to the new
indices.  Every set of indices whose deletion leaves accepted code is at least as large
as the list of faults is long. -/
theorem faults_minimum_repair (code : List Instruction) :
    (reported code).card = (faults code).length
      ∧
    (∀ i ∉ reported code,
      (without (reported code) code)[renumber (reported code) i]? = code[i]?)
      ∧
    (∃ table, resolve (without (reported code) code) = .ok table ∧
      ∀ i j : Int, table.target? i = some j ↔
        ∃ a b : Nat, (JumpTable.ofPairs (scan code).pairs).target? a = some (b : Int) ∧
          i = renumber (reported code) a ∧ j = renumber (reported code) b)
      ∧
    (∀ removed : Finset Nat, (∃ table, resolve (without removed code) = .ok table) →
      (faults code).length ≤ removed.card) := by
  refine ⟨card_reported code, fun i hi => getElem?_without hi code, ?_, ?_⟩
  · exact ⟨_, resolve_without_reported code,
      target?_without_reported (resolve_without_reported code)⟩
  · rintro removed ⟨table, h⟩
    exact length_faults_le_card h

/-- The code `]+[[-]`: two brackets have to go, and deleting the first and the third
instruction does it.  The loop at the end moves two places forward. -/
theorem faults_minimum_repair_loop :
    reported [.loopClose, .increment, .loopOpen, .loopOpen, .decrement, .loopClose] =
        {0, 2} ∧
      without {0, 2} [.loopClose, .increment, .loopOpen, .loopOpen, .decrement,
        .loopClose] = [.increment, .loopOpen, .decrement, .loopClose] ∧
      renumber {0, 2} 3 = 1 ∧
      (faults [.loopClose, .increment, .loopOpen, .loopOpen, .decrement,
        .loopClose]).length ≤ ({0, 2} : Finset Nat).card := by
  refine ⟨rfl, rfl, rfl, (faults_minimum_repair _).2.2.2 {0, 2} ⟨_, rfl⟩⟩

end Counting

end Loop
end TapeLang
