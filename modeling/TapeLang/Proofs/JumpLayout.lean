import Mathlib.Tactic
import TapeLang.Program
import TapeLang.Proofs.LoopTree

/-!
# Where the jumps of a tree lead

**Input.** A tree, and the program that its code and its jump table make.
**Results.** `JumpTable.target?_ofPairs_iff` reads a table of pairs that share
no index.  `Block.placed_of_resolve` says that the program of a tree holds every
instruction of the tree at its place, and a jump from each bracket to its
partner.
-/

namespace TapeLang

namespace JumpTable

/-- The indices of all brackets in a list of pairs. -/
def endpoints (pairs : List (Nat × Nat)) : List Nat :=
  pairs.flatMap fun pair => [pair.1, pair.2]

theorem endpoints_append (first second : List (Nat × Nat)) :
    endpoints (first ++ second) = endpoints first ++ endpoints second := by
  simp [endpoints]

theorem endpoints_cons (pair : Nat × Nat) (pairs : List (Nat × Nat)) :
    endpoints (pair :: pairs) = pair.1 :: pair.2 :: endpoints pairs :=
  rfl

theorem mem_endpoints {pairs : List (Nat × Nat)} {i : Nat} :
    i ∈ endpoints pairs ↔ ∃ pair ∈ pairs, i = pair.1 ∨ i = pair.2 := by
  simp [endpoints]

theorem target?_link (table : JumpTable) (pair : Nat × Nat) (i : Int) :
    (table.link pair).target? i =
      if i = pair.2 then some (pair.1 : Int)
      else if i = pair.1 then some (pair.2 : Int)
      else table.target? i := by
  rw [link, target?_insert, target?_insert]

theorem target?_foldl_link_of_notMem {pairs : List (Nat × Nat)} {i : Int}
    (h : ∀ e ∈ endpoints pairs, i ≠ e) (table : JumpTable) :
    (pairs.foldl link table).target? i = table.target? i := by
  induction pairs generalizing table with
  | nil => rfl
  | cons pair pairs ih =>
      rw [endpoints_cons] at h
      rw [List.foldl_cons, ih fun e he => h e (by simp [he]), target?_link,
        if_neg (h _ (by simp)), if_neg (h _ (by simp))]

/-- A pair leads both ways, since no later pair touches its two entries again. -/
theorem target?_foldl_link_of_mem {pairs : List (Nat × Nat)} {pair : Nat × Nat}
    (hnodup : (endpoints pairs).Nodup) (hmem : pair ∈ pairs) (table : JumpTable) :
    (pairs.foldl link table).target? pair.1 = some (pair.2 : Int) ∧
      (pairs.foldl link table).target? pair.2 = some (pair.1 : Int) := by
  induction pairs generalizing table with
  | nil => exact absurd hmem List.not_mem_nil
  | cons head pairs ih =>
      rw [endpoints_cons, List.nodup_cons, List.nodup_cons, List.mem_cons] at hnodup
      obtain ⟨hfirst, hsecond, hrest⟩ := hnodup
      rcases List.mem_cons.1 hmem with rfl | hmem
      · have hne : (pair.1 : Int) ≠ pair.2 := by
          intro h
          exact hfirst (Or.inl (Int.ofNat_inj.1 h))
        have h1 : ∀ e ∈ endpoints pairs, (pair.1 : Int) ≠ e := by
          intro e he h
          exact hfirst (Or.inr (Int.ofNat_inj.1 h ▸ he))
        have h2 : ∀ e ∈ endpoints pairs, (pair.2 : Int) ≠ e := by
          intro e he h
          exact hsecond (Int.ofNat_inj.1 h ▸ he)
        rw [List.foldl_cons, target?_foldl_link_of_notMem h1,
          target?_foldl_link_of_notMem h2, target?_link, target?_link]
        simp [hne]
      · exact ih hrest hmem (table.link head)

/-- A table of pairs without a common index holds both directions of each pair,
and nothing else. -/
theorem target?_ofPairs_iff {pairs : List (Nat × Nat)}
    (hnodup : (endpoints pairs).Nodup) {i j : Int} :
    (ofPairs pairs).target? i = some j ↔
      ∃ pair ∈ pairs, (i = pair.1 ∧ j = pair.2) ∨ (i = pair.2 ∧ j = pair.1) := by
  constructor
  · intro h
    by_cases hend : ∃ e ∈ endpoints pairs, i = e
    · obtain ⟨e, he, rfl⟩ := hend
      obtain ⟨pair, hpair, hside⟩ := mem_endpoints.1 he
      have hboth := target?_foldl_link_of_mem hnodup hpair empty
      rw [ofPairs] at h
      rcases hside with rfl | rfl
      · rw [hboth.1, Option.some.injEq] at h
        exact ⟨pair, hpair, Or.inl ⟨rfl, h.symm⟩⟩
      · rw [hboth.2, Option.some.injEq] at h
        exact ⟨pair, hpair, Or.inr ⟨rfl, h.symm⟩⟩
    · have hout : ∀ e ∈ endpoints pairs, i ≠ e :=
        fun e he hie => hend ⟨e, he, hie⟩
      rw [ofPairs, target?_foldl_link_of_notMem hout, target?_empty] at h
      cases h
  · rintro ⟨pair, hpair, ⟨rfl, rfl⟩ | ⟨rfl, rfl⟩⟩
    · exact (target?_foldl_link_of_mem hnodup hpair empty).1
    · exact (target?_foldl_link_of_mem hnodup hpair empty).2

end JumpTable

theorem Program.fetch?_mk_toArray (code : List Instruction) (jumps : JumpTable)
    (i : Nat) :
    (Program.mk code.toArray jumps).fetch? i = code[i]? := by
  rw [Program.fetch?]
  rcases Nat.lt_or_ge i code.length with h | h
  · have hplace : place? code.length i = some i :=
      place?_eq_some_iff.2 ⟨h, Or.inl rfl⟩
    simp [hplace]
  · have hplace : place? code.length i = none := by
      rw [Option.eq_none_iff_forall_ne_some]
      intro place hsome
      have hspec := place?_eq_some_iff.1 hsome
      omega
    simp [hplace, List.getElem?_eq_none h]

namespace Block

open JumpTable

section Endpoints

theorem endpoint_bounds {b : Block} {start e : Nat}
    (h : e ∈ endpoints (b.pairs start)) :
    start ≤ e ∧ e < start + b.size := by
  induction b generalizing start with
  | done => simp [pairs, endpoints] at h
  | primitive p rest ih =>
      have := ih h
      simp only [size]
      omega
  | loop body rest ihBody ihRest =>
      rw [pairs, endpoints_append, endpoints_cons, List.mem_append, List.mem_cons,
        List.mem_cons] at h
      simp only [size]
      rcases h with h | rfl | rfl | h
      · have := ihRest h
        omega
      · omega
      · dsimp only
        omega
      · have := ihBody h
        omega

/-- No bracket of a tree has two partners: the opening bracket of a loop precedes its body,
and the closing one follows it. -/
theorem nodup_endpoints (b : Block) (start : Nat) :
    (endpoints (b.pairs start)).Nodup := by
  induction b generalizing start with
  | done => exact List.nodup_nil
  | primitive p rest ih => exact ih (start + 1)
  | loop body rest ihBody ihRest =>
      rw [pairs, endpoints_append, endpoints_cons]
      refine List.nodup_append.2 ⟨ihRest _, ?_, ?_⟩
      · rw [List.nodup_cons, List.nodup_cons, List.mem_cons]
        refine ⟨?_, ?_, ihBody _⟩
        · rintro (h | h)
          · simp at h
            omega
          · have := endpoint_bounds h
            omega
        · intro h
          have := endpoint_bounds h
          dsimp only at this
          omega
      · intro i hi j hj hij
        have hrest := endpoint_bounds hi
        rw [List.mem_cons, List.mem_cons] at hj
        rcases hj with rfl | rfl | hj
        · omega
        · dsimp only at hij
          omega
        · have := endpoint_bounds hj
          omega

end Endpoints

/-- The program holds the code of a tree from an index on, with a jump from each
bracket to its partner. -/
inductive Placed (program : Program) : Nat → Block → Prop
  | done {start : Nat} : Placed program start .done
  | primitive {start : Nat} {p : Primitive} {rest : Block}
      (hfetch : program.fetch? start = some p.instruction)
      (hrest : Placed program (start + 1) rest) :
      Placed program start (.primitive p rest)
  | loop {start : Nat} {body rest : Block}
      (hopen : program.fetch? start = some .loopOpen)
      (hskip : program.jumps.target? start = some ((start + body.size + 1 : Nat) : Int))
      (hbody : Placed program (start + 1) body)
      (hclose : program.fetch? (start + body.size + 1 : Nat) = some .loopClose)
      (hback : program.jumps.target? (start + body.size + 1 : Nat) = some (start : Int))
      (hrest : Placed program (start + body.size + 2) rest) :
      Placed program start (.loop body rest)

section Placed

theorem placed_of_pairs {jumps : JumpTable} {b : Block}
    (before after : List Instruction)
    (hjumps : ∀ pair ∈ b.pairs before.length,
      jumps.target? pair.1 = some (pair.2 : Int) ∧
        jumps.target? pair.2 = some (pair.1 : Int)) :
    Placed ⟨(before ++ (b.flatten ++ after)).toArray, jumps⟩ before.length b := by
  induction b generalizing before after with
  | done => exact .done
  | primitive p rest ih =>
      refine .primitive ?_ ?_
      · rw [Program.fetch?_mk_toArray]
        simp [flatten]
      · have hmore := ih (before ++ [p.instruction]) after (by simpa [pairs] using hjumps)
        simpa [flatten] using hmore
  | loop body rest ihBody ihRest =>
      have hloop := hjumps (before.length, before.length + body.size + 1)
        (by simp [pairs])
      refine .loop ?_ hloop.1 ?_ ?_ hloop.2 ?_
      · rw [Program.fetch?_mk_toArray]
        simp [flatten]
      · have hmore := ihBody (before ++ [.loopOpen])
          (.loopClose :: (rest.flatten ++ after)) (by
            intro pair hpair
            refine hjumps pair ?_
            rw [List.length_append, List.length_singleton] at hpair
            rw [pairs]
            exact List.mem_append_right _ (List.mem_cons_of_mem _ hpair))
        simpa [flatten] using hmore
      · have hcode : before ++ ((Block.loop body rest).flatten ++ after) =
            (before ++ .loopOpen :: body.flatten) ++
              (.loopClose :: (rest.flatten ++ after)) := by
          simp [flatten]
        have hindex : before.length + body.size + 1 =
            (before ++ .loopOpen :: body.flatten).length := by
          simp only [List.length_append, List.length_cons, length_flatten]
          omega
        rw [Program.fetch?_mk_toArray, hcode, hindex]
        simp
      · have hindex : before.length + body.size + 2 =
            (before ++ (Instruction.loopOpen :: (body.flatten ++ [.loopClose]))).length := by
          simp only [List.length_append, List.length_cons, List.length_nil, length_flatten]
          omega
        have hmore := ihRest (before ++ (.loopOpen :: (body.flatten ++ [.loopClose])))
          after (by
            intro pair hpair
            refine hjumps pair ?_
            rw [← hindex] at hpair
            rw [pairs]
            exact List.mem_append_left _ hpair)
        rw [← hindex] at hmore
        simpa [flatten] using hmore

/-- The program of a tree holds the tree. -/
theorem placed_of_resolve {b : Block} {jumps : JumpTable}
    (h : Loop.resolve b.flatten = .ok jumps) :
    Placed ⟨b.flatten.toArray, jumps⟩ 0 b := by
  rw [resolve_flatten, Except.ok.injEq] at h
  subst h
  have hjumps : ∀ pair ∈ b.pairs 0,
      (ofPairs (b.pairs 0)).target? pair.1 = some (pair.2 : Int) ∧
        (ofPairs (b.pairs 0)).target? pair.2 = some (pair.1 : Int) :=
    fun pair hpair => target?_foldl_link_of_mem (b.nodup_endpoints 0) hpair empty
  simpa using placed_of_pairs [] [] hjumps

/-- Every bracket of a placed tree jumps to an index inside the tree. -/
theorem Placed.exists_target {program : Program} {b : Block} {start : Nat}
    (h : Placed program start b) {i : Nat} (hi : start ≤ i ∧ i < start + b.size)
    (hbracket : program.fetch? i = some .loopOpen ∨ program.fetch? i = some .loopClose) :
    ∃ target : Nat, program.jumps.target? i = some (target : Int) ∧
      start ≤ target ∧ target < start + b.size := by
  induction h with
  | done =>
      simp only [size] at hi
      omega
  | @primitive start p rest hfetch _ ih =>
      simp only [size] at hi ⊢
      by_cases hfirst : i = start
      · subst hfirst
        rw [hfetch] at hbracket
        rcases hbracket with hbracket | hbracket
        · exact absurd (Option.some.inj hbracket) p.instruction_ne_loopOpen
        · exact absurd (Option.some.inj hbracket) p.instruction_ne_loopClose
      · obtain ⟨target, htarget, hge, hlt⟩ := ih (by omega)
        exact ⟨target, htarget, by omega, by omega⟩
  | @loop start body rest _ hskip _ _ hback _ ihBody ihRest =>
      simp only [size] at hi ⊢
      by_cases hfirst : i = start
      · subst hfirst
        exact ⟨_, hskip, by omega, by omega⟩
      by_cases hlast : i = start + body.size + 1
      · subst hlast
        exact ⟨_, hback, by omega, by omega⟩
      by_cases hinside : i < start + body.size + 1
      · obtain ⟨target, htarget, hge, hlt⟩ := ihBody (by omega)
        exact ⟨target, htarget, by omega, by omega⟩
      · obtain ⟨target, htarget, hge, hlt⟩ := ihRest (by omega)
        exact ⟨target, htarget, by omega, by omega⟩

end Placed

end Block

namespace Loop

/-- The table of an accepted code leads to indices only. -/
theorem nonneg_of_resolve {code : List Instruction} {jumps : JumpTable}
    (h : resolve code = .ok jumps) {i target : Int}
    (htarget : jumps.target? i = some target) :
    0 ≤ target := by
  obtain ⟨b, rfl⟩ := exists_flatten_eq h
  rw [b.resolve_flatten, Except.ok.injEq] at h
  subst h
  obtain ⟨pair, -, ⟨-, rfl⟩ | ⟨-, rfl⟩⟩ :=
    (JumpTable.target?_ofPairs_iff (b.nodup_endpoints 0)).1 htarget
  · omega
  · omega

/-- In an accepted code every bracket has a jump, and it stays in the code. -/
theorem exists_target_of_resolve {code : List Instruction} {jumps : JumpTable}
    (h : resolve code = .ok jumps) {i : Nat}
    (hbracket : code[i]? = some .loopOpen ∨ code[i]? = some .loopClose) :
    ∃ target : Nat, jumps.target? i = some (target : Int) ∧ target < code.length := by
  obtain ⟨b, rfl⟩ := exists_flatten_eq h
  have hi : i < b.flatten.length := by
    rcases hbracket with hbracket | hbracket
    · exact (List.getElem?_eq_some_iff.1 hbracket).1
    · exact (List.getElem?_eq_some_iff.1 hbracket).1
  rw [Block.length_flatten] at hi ⊢
  rw [← Program.fetch?_mk_toArray b.flatten jumps] at hbracket
  obtain ⟨target, htarget, -, hlt⟩ :=
    (Block.placed_of_resolve h).exists_target ⟨Nat.zero_le i, by omega⟩ hbracket
  exact ⟨target, htarget, by omega⟩

end Loop
end TapeLang
