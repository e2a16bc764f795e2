import Mathlib.Tactic
import TapeLang.Loop.Scan

/-!
# Depth of the loop brackets

The depth before an index counts the brackets that precede it: the opening ones
minus the closing ones.

**Input.** A sequence of instructions.
**Results.** `Scan.tracks_scan` describes by depths alone what the pass over the
brackets has found: a closing bracket is stray if and only if the depth after it
is below every earlier depth, and an opening bracket is unclosed if and only if
every later depth is above the depth before it.
-/

namespace TapeLang

/-- How an instruction changes the depth. -/
def Instruction.tilt : Instruction → Int
  | .loopOpen => 1
  | .loopClose => -1
  | _ => 0

namespace Loop

/-- Opening minus closing brackets among the first `k` instructions. -/
def depth (code : List Instruction) (k : Nat) : Int :=
  ((code.take k).count .loopOpen : Int) - (code.take k).count .loopClose

/-- A closing bracket that takes the depth below all depths before it. -/
def IsStray (code : List Instruction) (i : Nat) : Prop :=
  code[i]? = some .loopClose ∧ ∀ k ≤ i, depth code (i + 1) < depth code k

/-- An opening bracket to whose depth the code never comes back. -/
def IsUnclosed (code : List Instruction) (i : Nat) : Prop :=
  code[i]? = some .loopOpen ∧
    ∀ k, i < k → k ≤ code.length → depth code i < depth code k

section Depth

variable {code : List Instruction}

@[simp] theorem depth_zero (code : List Instruction) : depth code 0 = 0 := by
  simp [depth]

/-- One instruction changes the depth by its tilt. -/
theorem depth_succ {k : Nat} {x : Instruction} (h : code[k]? = some x) :
    depth code (k + 1) = depth code k + x.tilt := by
  rw [depth, depth, List.take_add_one, h]
  cases x <;> simp [Instruction.tilt] <;> omega

/-- The depth inside a part does not depend on what follows it. -/
theorem depth_append_of_le {k : Nat} (h : k ≤ code.length)
    (rest : List Instruction) :
    depth (code ++ rest) k = depth code k := by
  rw [depth, depth, List.take_append_of_le_length h]

theorem depth_snoc (code : List Instruction) (x : Instruction) :
    depth (code ++ [x]) (code.length + 1) = depth code code.length + x.tilt := by
  rw [depth_succ List.getElem?_concat_length, depth_append_of_le le_rfl]

end Depth

section Snoc

variable {code : List Instruction} {x : Instruction} {i : Nat}

theorem isStray_snoc_of_lt (hi : i < code.length) :
    IsStray (code ++ [x]) i ↔ IsStray code i := by
  unfold IsStray
  rw [List.getElem?_append_left hi, depth_append_of_le hi]
  constructor
  · rintro ⟨hx, hk⟩
    refine ⟨hx, fun k hki => ?_⟩
    rw [← depth_append_of_le (by omega : k ≤ code.length) [x]]
    exact hk k hki
  · rintro ⟨hx, hk⟩
    refine ⟨hx, fun k hki => ?_⟩
    rw [depth_append_of_le (by omega : k ≤ code.length)]
    exact hk k hki

theorem isStray_snoc_length :
    IsStray (code ++ [x]) code.length ↔
      x = .loopClose ∧ ∀ k ≤ code.length, depth code code.length ≤ depth code k := by
  unfold IsStray
  rw [List.getElem?_concat_length, Option.some.injEq, depth_snoc]
  constructor
  · rintro ⟨rfl, hk⟩
    refine ⟨rfl, fun k hki => ?_⟩
    have h := hk k hki
    rw [depth_append_of_le hki] at h
    simp only [Instruction.tilt] at h
    omega
  · rintro ⟨rfl, hk⟩
    refine ⟨rfl, fun k hki => ?_⟩
    rw [depth_append_of_le hki]
    have h := hk k hki
    simp only [Instruction.tilt]
    omega

theorem isUnclosed_snoc_of_lt (hi : i < code.length) :
    IsUnclosed (code ++ [x]) i ↔
      IsUnclosed code i ∧ depth code i < depth code code.length + x.tilt := by
  unfold IsUnclosed
  rw [List.getElem?_append_left hi, depth_append_of_le hi.le,
    List.length_append, List.length_singleton]
  constructor
  · rintro ⟨hx, hk⟩
    refine ⟨⟨hx, fun k hik hkn => ?_⟩, ?_⟩
    · have h := hk k hik (by omega)
      rwa [depth_append_of_le hkn] at h
    · have h := hk (code.length + 1) (by omega) le_rfl
      rwa [depth_snoc] at h
  · rintro ⟨⟨hx, hk⟩, hlast⟩
    refine ⟨hx, fun k hik hkn => ?_⟩
    rcases Nat.lt_or_ge code.length k with hlt | hle
    · obtain rfl : k = code.length + 1 := by omega
      rwa [depth_snoc]
    · rw [depth_append_of_le hle]
      exact hk k hik hle

theorem isUnclosed_snoc_length :
    IsUnclosed (code ++ [x]) code.length ↔ x = .loopOpen := by
  unfold IsUnclosed
  rw [List.getElem?_concat_length, Option.some.injEq, depth_append_of_le le_rfl,
    List.length_append, List.length_singleton]
  constructor
  · exact fun h => h.1
  · rintro rfl
    refine ⟨rfl, fun k hik hkn => ?_⟩
    obtain rfl : k = code.length + 1 := by omega
    rw [depth_snoc]
    simp [Instruction.tilt]

/-- A stray or unclosed bracket is an instruction of the code. -/
theorem IsStray.lt_length (h : IsStray code i) : i < code.length :=
  (List.getElem?_eq_some_iff.1 h.1).1

theorem IsUnclosed.lt_length (h : IsUnclosed code i) : i < code.length :=
  (List.getElem?_eq_some_iff.1 h.1).1

end Snoc

/-- Every pending loop, innermost first, was opened one level below the one
inside it, and the innermost one level below the depth `d`. -/
inductive Nested (code : List Instruction) : Int → List Nat → Prop
  | outside (d : Int) : Nested code d []
  | inside {d : Int} {opening : Nat} {outer : List Nat}
      (hdepth : depth code opening + 1 = d)
      (houter : Nested code (depth code opening) outer) :
      Nested code d (opening :: outer)

/-- Nesting is about the code that was read. -/
theorem Nested.append {code : List Instruction} {d : Int} {pending : List Nat}
    (h : Nested code d pending) (hlt : ∀ i ∈ pending, i < code.length)
    (rest : List Instruction) :
    Nested (code ++ rest) d pending := by
  induction h with
  | outside d => exact .outside d
  | @inside d opening outer hdepth _ ih =>
      have hopening : depth (code ++ rest) opening = depth code opening :=
        depth_append_of_le (hlt _ List.mem_cons_self).le rest
      refine .inside ?_ ?_
      · rw [hopening]
        exact hdepth
      · rw [hopening]
        exact ih fun i hi => hlt i (List.mem_cons_of_mem _ hi)

namespace Scan

/-- What the pass has found in the code that it has read, said by depths. -/
structure Tracks (s : Scan) (code : List Instruction) : Prop where
  position_eq : s.position = code.length
  mem_strays : ∀ i, i ∈ s.strays ↔ IsStray code i
  mem_pending : ∀ i, i ∈ s.pending ↔ IsUnclosed code i
  strays_sorted : s.strays.Pairwise (· > ·)
  pending_sorted : s.pending.Pairwise (· > ·)
  nested : Nested code (depth code code.length) s.pending
  /-- No depth so far is further below the present one than loops are open. -/
  floor : ∀ k ≤ code.length,
    depth code code.length - s.pending.length ≤ depth code k

section Visit

variable {s : Scan} {code : List Instruction}

theorem tracks_start : Tracks start [] where
  position_eq := rfl
  mem_strays i := by simp [start, IsStray]
  mem_pending i := by simp [start, IsUnclosed]
  strays_sorted := List.Pairwise.nil
  pending_sorted := List.Pairwise.nil
  nested := .outside _
  floor k hk := by
    obtain rfl : k = 0 := Nat.le_zero.1 hk
    simp [start]

namespace Tracks

theorem pending_lt (h : s.Tracks code) {i : Nat} (hi : i ∈ s.pending) :
    i < code.length :=
  ((h.mem_pending i).1 hi).lt_length

theorem strays_lt (h : s.Tracks code) {i : Nat} (hi : i ∈ s.strays) :
    i < code.length :=
  ((h.mem_strays i).1 hi).lt_length

/-- A bracket of the longer code is one of the shorter code or the last one. -/
theorem lt_or_eq_of_mem_snoc {x y : Instruction} {i : Nat}
    (h : (code ++ [x])[i]? = some y) :
    i < code.length ∨ i = code.length := by
  have hi := (List.getElem?_eq_some_iff.1 h).1
  rw [List.length_append, List.length_singleton] at hi
  omega

/-- The old stray brackets stay stray, whatever is read. -/
theorem mem_strays_snoc_of_ne (h : s.Tracks code) {x : Instruction}
    (hx : ¬ IsStray (code ++ [x]) code.length) (i : Nat) :
    i ∈ s.strays ↔ IsStray (code ++ [x]) i := by
  rw [h.mem_strays i]
  constructor
  · intro hi
    exact (isStray_snoc_of_lt hi.lt_length).2 hi
  · intro hi
    rcases lt_or_eq_of_mem_snoc hi.1 with hlt | rfl
    · exact (isStray_snoc_of_lt hlt).1 hi
    · exact absurd hi hx

/-- A depth that no instruction of tilt zero or one takes below a pending loop. -/
theorem mem_pending_snoc_of_tilt (h : s.Tracks code) {x : Instruction}
    (hx : 0 ≤ x.tilt) {i : Nat} (hi : i < code.length) :
    i ∈ s.pending ↔ IsUnclosed (code ++ [x]) i := by
  rw [h.mem_pending i, isUnclosed_snoc_of_lt hi]
  constructor
  · intro hold
    have hlt := hold.2 code.length hi le_rfl
    exact ⟨hold, by omega⟩
  · exact fun hnew => hnew.1

theorem floor_snoc (h : s.Tracks code) {x : Instruction} {count : Int}
    (hold : depth code code.length + x.tilt - count ≤
      depth code code.length - s.pending.length)
    (hcount : 0 ≤ count) :
    ∀ k ≤ (code ++ [x]).length,
      depth (code ++ [x]) (code ++ [x]).length - count ≤ depth (code ++ [x]) k := by
  intro k hk
  rw [List.length_append, List.length_singleton] at hk ⊢
  rcases Nat.lt_or_ge code.length k with hlt | hle
  · obtain rfl : k = code.length + 1 := by omega
    omega
  · rw [depth_snoc, depth_append_of_le hle]
    have := h.floor k hle
    omega

/-- An instruction that is no bracket is passed over. -/
theorem visit_plain (h : s.Tracks code) {x : Instruction}
    (hopen : x ≠ .loopOpen) (hclose : x ≠ .loopClose) :
    (s.visit x).Tracks (code ++ [x]) := by
  have hvisit : s.visit x = { s with position := s.position + 1 } := by
    cases x with
    | loopOpen => exact absurd rfl hopen
    | loopClose => exact absurd rfl hclose
    | _ => rfl
  have htilt : x.tilt = 0 := by
    cases x with
    | loopOpen => exact absurd rfl hopen
    | loopClose => exact absurd rfl hclose
    | _ => rfl
  rw [hvisit]
  refine ⟨?_, ?_, ?_, h.strays_sorted, h.pending_sorted, ?_, ?_⟩
  · simp [h.position_eq]
  · exact h.mem_strays_snoc_of_ne fun hi => hclose (isStray_snoc_length.1 hi).1
  · intro i
    rcases Nat.lt_or_ge i code.length with hlt | hge
    · exact h.mem_pending_snoc_of_tilt htilt.ge hlt
    · constructor
      · intro hi
        exact absurd (h.pending_lt hi) (by omega)
      · intro hi
        rcases lt_or_eq_of_mem_snoc hi.1 with hlt | rfl
        · omega
        · exact absurd (isUnclosed_snoc_length.1 hi) hopen
  · rw [List.length_append, List.length_singleton, depth_snoc, htilt, Int.add_zero]
    exact h.nested.append (fun i hi => h.pending_lt hi) [x]
  · exact h.floor_snoc (by rw [htilt]; simp) (by omega)

/-- An opening bracket is pending. -/
theorem visit_open (h : s.Tracks code) :
    (s.visit .loopOpen).Tracks (code ++ [.loopOpen]) := by
  have hnot : ¬ IsStray (code ++ [.loopOpen]) code.length := by
    intro hi
    exact absurd (isStray_snoc_length.1 hi).1 (by decide)
  refine ⟨?_, h.mem_strays_snoc_of_ne hnot, ?_, h.strays_sorted, ?_, ?_, ?_⟩
  · simp [visit, h.position_eq]
  · intro i
    simp only [visit, List.mem_cons, h.position_eq]
    constructor
    · rintro (rfl | hi)
      · exact isUnclosed_snoc_length.2 rfl
      · exact (h.mem_pending_snoc_of_tilt (by decide) (h.pending_lt hi)).1 hi
    · intro hi
      rcases lt_or_eq_of_mem_snoc hi.1 with hlt | rfl
      · exact Or.inr ((h.mem_pending_snoc_of_tilt (by decide) hlt).2 hi)
      · exact Or.inl rfl
  · refine List.pairwise_cons.2 ⟨fun i hi => ?_, h.pending_sorted⟩
    rw [h.position_eq]
    exact h.pending_lt hi
  · have hdepth : depth (code ++ [.loopOpen]) s.position = depth code code.length := by
      rw [h.position_eq, depth_append_of_le le_rfl]
    rw [List.length_append, List.length_singleton, depth_snoc]
    refine .inside ?_ ?_
    · rw [hdepth]
      rfl
    · rw [hdepth]
      exact h.nested.append (fun i hi => h.pending_lt hi) _
  · have hlen : (s.visit .loopOpen).pending.length = s.pending.length + 1 := rfl
    rw [hlen]
    exact h.floor_snoc (by simp [Instruction.tilt]) (by omega)

/-- A closing bracket without an open loop is stray. -/
theorem visit_stray (h : s.Tracks code) (hp : s.pending = []) :
    (s.visit .loopClose).Tracks (code ++ [.loopClose]) := by
  have hvisit : s.visit .loopClose =
      { s with position := s.position + 1, strays := s.position :: s.strays } := by
    simp [visit, hp]
  have hfloor : ∀ k ≤ code.length, depth code code.length ≤ depth code k := by
    intro k hk
    have := h.floor k hk
    rw [hp] at this
    simpa using this
  rw [hvisit]
  refine ⟨?_, ?_, ?_, ?_, h.pending_sorted, ?_, ?_⟩
  · simp [h.position_eq]
  · intro i
    simp only [List.mem_cons, h.position_eq]
    constructor
    · rintro (rfl | hi)
      · exact isStray_snoc_length.2 ⟨rfl, hfloor⟩
      · exact (isStray_snoc_of_lt (h.strays_lt hi)).2 ((h.mem_strays i).1 hi)
    · intro hi
      rcases lt_or_eq_of_mem_snoc hi.1 with hlt | rfl
      · exact Or.inr ((h.mem_strays i).2 ((isStray_snoc_of_lt hlt).1 hi))
      · exact Or.inl rfl
  · intro i
    simp only [hp, List.not_mem_nil, false_iff]
    intro hi
    rcases lt_or_eq_of_mem_snoc hi.1 with hlt | rfl
    · have hold := (isUnclosed_snoc_of_lt hlt).1 hi
      have hmem := (h.mem_pending i).2 hold.1
      rw [hp] at hmem
      exact List.not_mem_nil hmem
    · exact absurd (isUnclosed_snoc_length.1 hi) (by decide)
  · refine List.pairwise_cons.2 ⟨fun i hi => ?_, h.strays_sorted⟩
    rw [h.position_eq]
    exact h.strays_lt hi
  · rw [show s.pending = [] from hp]
    exact .outside _
  · exact h.floor_snoc (by simp [Instruction.tilt]) (by omega)

/-- A closing bracket closes the innermost pending loop, and only that one. -/
theorem visit_close (h : s.Tracks code) {opening : Nat} {outer : List Nat}
    (hp : s.pending = opening :: outer) :
    (s.visit .loopClose).Tracks (code ++ [.loopClose]) := by
  have hvisit : s.visit .loopClose =
      { s with
        position := s.position + 1
        pending := outer
        pairs := (opening, s.position) :: s.pairs } := by
    simp [visit, hp]
  have hnested := h.nested
  have hsorted := h.pending_sorted
  rw [hp] at hnested hsorted
  obtain ⟨houter, hdesc⟩ := List.pairwise_cons.1 hsorted
  have hopening : opening < code.length := h.pending_lt (by rw [hp]; simp)
  obtain ⟨hdepth, hrest⟩ :
      depth code opening + 1 = depth code code.length ∧
        Nested code (depth code opening) outer := by
    cases hnested with
    | inside hdepth hrest => exact ⟨hdepth, hrest⟩
  have hnot : ¬ IsStray (code ++ [.loopClose]) code.length := by
    intro hi
    have := (isStray_snoc_length.1 hi).2 opening hopening.le
    omega
  rw [hvisit]
  refine ⟨?_, h.mem_strays_snoc_of_ne hnot, ?_, h.strays_sorted, hdesc, ?_, ?_⟩
  · simp [h.position_eq]
  · intro i
    constructor
    · intro hi
      have hmem : i ∈ s.pending := by rw [hp]; exact List.mem_cons_of_mem _ hi
      have hold := (h.mem_pending i).1 hmem
      have hlt := hold.2 opening (houter i hi) hopening.le
      exact (isUnclosed_snoc_of_lt (h.pending_lt hmem)).2
        ⟨hold, by simp only [Instruction.tilt]; omega⟩
    · intro hi
      rcases lt_or_eq_of_mem_snoc hi.1 with hlt | rfl
      · obtain ⟨hold, hlast⟩ := (isUnclosed_snoc_of_lt hlt).1 hi
        have hmem := (h.mem_pending i).2 hold
        rw [hp] at hmem
        rcases List.mem_cons.1 hmem with rfl | hmem
        · simp only [Instruction.tilt] at hlast
          omega
        · exact hmem
      · exact absurd (isUnclosed_snoc_length.1 hi) (by decide)
  · rw [List.length_append, List.length_singleton, depth_snoc]
    have htilt :
        depth code code.length + Instruction.loopClose.tilt = depth code opening := by
      simp only [Instruction.tilt]
      omega
    rw [htilt]
    refine hrest.append (fun i hi => h.pending_lt ?_) _
    rw [hp]
    exact List.mem_cons_of_mem _ hi
  · have hlen : s.pending.length = outer.length + 1 := by rw [hp]; rfl
    exact h.floor_snoc (by simp [Instruction.tilt, hlen]; omega) (by omega)

/-- One instruction keeps the description. -/
theorem visit (h : s.Tracks code) (x : Instruction) :
    (s.visit x).Tracks (code ++ [x]) := by
  by_cases hopen : x = .loopOpen
  · subst hopen
    exact h.visit_open
  · by_cases hclose : x = .loopClose
    · subst hclose
      cases hp : s.pending with
      | nil => exact h.visit_stray hp
      | cons opening outer => exact h.visit_close hp
    · exact h.visit_plain hopen hclose

end Tracks

end Visit

/-- The pass over a code finds what the depths say. -/
theorem tracks_scan (code : List Instruction) : (scan code).Tracks code := by
  induction code using List.reverseRecOn with
  | nil => exact tracks_start
  | append_singleton code x ih =>
      rw [scan_append]
      exact ih.visit x

end Scan
end Loop
end TapeLang
