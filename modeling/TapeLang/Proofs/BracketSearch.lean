import Mathlib.Tactic
import TapeLang.Proofs.BracketDepth
import TapeLang.Proofs.JumpLayout

/-!
# Searching for the partner of a bracket

The partner of a bracket can be found without a table: a counter goes over the
code from the bracket on, one up at each bracket of its own sort and one down at
each of the other, until it is back at zero.

**Input.** A sequence of instructions, and the index of a bracket.
**Algorithm.** `closing?` searches forward from an opening bracket, and
`opening?` backward from a closing one.
**Results.** `resolve_eq_search`: where `resolve` gives a table, the table holds
the brackets and nothing else, and leads each of them to what the search finds.
So loops lie side by side or one inside the other, and the table of the code
inside a loop is a part of the table of the whole.
-/

namespace TapeLang
namespace Loop

section Search

/-- How many places a counter passes before the one that brings it to zero.  It
begins at `level`, and each place adds its own number. -/
def firstZero (level : Int) : List Int → Option Nat
  | [] => none
  | tilt :: rest =>
      if level + tilt = 0 then
        some 0
      else
        (firstZero (level + tilt) rest).map (· + 1)

/-- The index at which a depth counter is back at zero that goes forward from
index `a`. -/
def closing? (code : List Instruction) (a : Nat) : Option Nat :=
  (firstZero 0 ((code.drop a).map Instruction.tilt)).map (a + ·)

/-- The index at which a depth counter is back at zero that goes backward from
index `b`, and so counts the closing brackets up and the opening ones down. -/
def opening? (code : List Instruction) (b : Nat) : Option Nat :=
  (firstZero 0 ((code.take (b + 1)).reverse.map fun x => -x.tilt)).map (b - ·)

end Search

/-- Numbers that bring no counter above zero down to zero, and leave it where it
was. -/
def Neutral (tilts : List Int) : Prop :=
  ∀ level > 0, ∀ rest,
    firstZero level (tilts ++ rest) = (firstZero level rest).map (· + tilts.length)

section Neutral

variable {first second tilts : List Int}

theorem neutral_nil : Neutral [] := by
  intro level _ rest
  simp

theorem neutral_zero : Neutral [0] := by
  intro level hlevel rest
  have hne : level ≠ 0 := by omega
  simp [firstZero, hne]

theorem Neutral.append (hfirst : Neutral first) (hsecond : Neutral second) :
    Neutral (first ++ second) := by
  intro level hlevel rest
  rw [List.append_assoc, hfirst level hlevel, hsecond level hlevel, Option.map_map,
    List.length_append]
  congr 1
  funext k
  simp only [Function.comp_apply]
  omega

/-- A counter passes a loop one level higher than it stands. -/
theorem Neutral.loop (h : Neutral tilts) : Neutral (1 :: (tilts ++ [-1])) := by
  intro level hlevel rest
  have hup : level + 1 ≠ 0 := by omega
  have hdown : level + 1 + -1 = level := by omega
  have hne : level ≠ 0 := by omega
  rw [List.cons_append, List.append_assoc, firstZero, if_neg hup, h _ (by omega),
    List.singleton_append, firstZero, hdown, if_neg hne]
  simp only [Option.map_map, List.length_cons, List.length_append, List.length_nil]
  congr 1
  funext k
  simp only [Function.comp_apply]
  omega

/-- A counter that begins at a loop is back at zero at its end. -/
theorem Neutral.firstZero_loop (h : Neutral tilts) (rest : List Int) :
    firstZero 0 (1 :: (tilts ++ -1 :: rest)) = some (tilts.length + 1) := by
  rw [firstZero, if_neg (by decide), h _ (by decide), firstZero, if_pos (by decide)]
  simp

theorem tilt_primitive (p : Primitive) : p.instruction.tilt = 0 := by
  cases p <;> rfl

/-- The code of a tree is neutral to a search that goes forward. -/
theorem neutral_flatten (b : Block) : Neutral (b.flatten.map Instruction.tilt) := by
  induction b with
  | done => exact neutral_nil
  | primitive p rest ih =>
      rw [Block.flatten, List.map_cons, tilt_primitive]
      exact neutral_zero.append ih
  | loop body rest ihBody ihRest =>
      have hcode : (Block.loop body rest).flatten.map Instruction.tilt =
          (1 :: (body.flatten.map Instruction.tilt ++ [-1])) ++
            rest.flatten.map Instruction.tilt := by
        simp [Block.flatten, Instruction.tilt]
      rw [hcode]
      exact ihBody.loop.append ihRest

/-- The code of a tree is neutral to a search that goes backward. -/
theorem neutral_reverse_flatten (b : Block) :
    Neutral (b.flatten.reverse.map fun x => -x.tilt) := by
  induction b with
  | done => exact neutral_nil
  | primitive p rest ih =>
      rw [Block.flatten, List.reverse_cons, List.map_append, List.map_singleton,
        tilt_primitive]
      exact ih.append neutral_zero
  | loop body rest ihBody ihRest =>
      have hcode : ((Block.loop body rest).flatten.reverse.map fun x => -x.tilt) =
          (rest.flatten.reverse.map fun x => -x.tilt) ++
            (1 :: ((body.flatten.reverse.map fun x => -x.tilt) ++ [-1])) := by
        simp [Block.flatten, Instruction.tilt]
      rw [hcode]
      exact ihRest.append ihBody.loop

end Neutral

/-- The instructions at `a` and `b` are the brackets of a loop with a given body. -/
def Encloses (code : List Instruction) (a b : Nat) (body : Block) : Prop :=
  ∃ before after : List Instruction,
    code = before ++ (.loopOpen :: (body.flatten ++ .loopClose :: after)) ∧
      a = before.length ∧ b = before.length + body.size + 1

namespace Encloses

variable {code : List Instruction} {a b : Nat} {body : Block}

theorem lt (h : Encloses code a b body) : a < b := by
  obtain ⟨before, after, -, rfl, rfl⟩ := h
  omega

theorem size_eq (h : Encloses code a b body) : a + 1 + body.size = b := by
  obtain ⟨before, after, -, rfl, rfl⟩ := h
  omega

theorem getElem?_opening (h : Encloses code a b body) : code[a]? = some .loopOpen := by
  obtain ⟨before, after, rfl, rfl, -⟩ := h
  simp

/-- The instructions between two partners are the code of the body. -/
theorem drop_take (h : Encloses code a b body) :
    (code.take b).drop (a + 1) = body.flatten := by
  obtain ⟨before, after, rfl, rfl, rfl⟩ := h
  have hcode : before ++ (.loopOpen :: (body.flatten ++ .loopClose :: after)) =
      (before ++ [.loopOpen]) ++ (body.flatten ++ .loopClose :: after) := by
    simp
  have hstop : before.length + body.size + 1 =
      (before ++ [Instruction.loopOpen]).length + body.flatten.length := by
    simp only [List.length_append, List.length_singleton, Block.length_flatten]
    omega
  rw [hcode, hstop, List.take_length_add_append, List.take_left, List.drop_left' (by simp)]

theorem getElem?_body (h : Encloses code a b body) {i : Nat} (hi : i < body.size) :
    code[a + 1 + i]? = body.flatten[i]? := by
  have hsize := h.size_eq
  rw [← h.drop_take, List.getElem?_drop, List.getElem?_take_of_lt (by omega)]

theorem drop_opening (h : Encloses code a b body) :
    ∃ after, code.drop a = .loopOpen :: (body.flatten ++ .loopClose :: after) := by
  obtain ⟨before, after, rfl, rfl, -⟩ := h
  exact ⟨after, List.drop_left⟩

theorem take_closing (h : Encloses code a b body) :
    ∃ before, code.take (b + 1) =
      before ++ (.loopOpen :: (body.flatten ++ [.loopClose])) := by
  obtain ⟨before, after, rfl, -, rfl⟩ := h
  refine ⟨before, ?_⟩
  have hcode : before ++ (.loopOpen :: (body.flatten ++ .loopClose :: after)) =
      (before ++ (.loopOpen :: (body.flatten ++ [.loopClose]))) ++ after := by
    simp
  rw [hcode]
  refine List.take_left' ?_
  simp only [List.length_append, List.length_cons, List.length_nil, Block.length_flatten]
  omega

theorem getElem?_closing (h : Encloses code a b body) : code[b]? = some .loopClose := by
  obtain ⟨after, hdrop⟩ := h.drop_opening
  have hsize := h.size_eq
  have hindex : b = a + (body.size + 1) := by omega
  rw [hindex, ← List.getElem?_drop, hdrop, List.getElem?_cons_succ,
    List.getElem?_append_right (by simp)]
  simp

/-- The search forward from an opening bracket ends at its partner. -/
theorem closing?_eq (h : Encloses code a b body) : closing? code a = some b := by
  obtain ⟨after, hdrop⟩ := h.drop_opening
  have hsize := h.size_eq
  rw [closing?, hdrop]
  simp only [List.map_cons, List.map_append, Instruction.tilt]
  rw [(neutral_flatten body).firstZero_loop]
  simp only [List.length_map, Block.length_flatten, Option.map_some, Option.some.injEq]
  omega

/-- The search backward from a closing bracket ends at its partner. -/
theorem opening?_eq (h : Encloses code a b body) : opening? code b = some a := by
  obtain ⟨before, htake⟩ := h.take_closing
  have hsize := h.size_eq
  have hcode : ((code.take (b + 1)).reverse.map fun x => -x.tilt) =
      1 :: ((body.flatten.reverse.map fun x => -x.tilt) ++
        -1 :: before.reverse.map fun x => -x.tilt) := by
    rw [htake]
    simp [Instruction.tilt]
  rw [opening?, hcode, (neutral_reverse_flatten body).firstZero_loop]
  simp only [List.length_map, List.length_reverse, Block.length_flatten, Option.map_some,
    Option.some.injEq]
  omega

end Encloses

section Pairs

/-- Code placed before and after does not change what two brackets enclose. -/
theorem Encloses.append {code : List Instruction} {a b : Nat} {body : Block}
    (h : Encloses code a b body) (front back : List Instruction) :
    Encloses (front ++ (code ++ back)) (front.length + a) (front.length + b) body := by
  obtain ⟨before, after, rfl, rfl, rfl⟩ := h
  refine ⟨front ++ before, after ++ back, by simp, by simp, ?_⟩
  simp only [List.length_append]
  omega

/-- Every pair of a tree encloses a body whose pairs are pairs of the tree. -/
theorem exists_encloses_of_mem_pairs {tree : Block} {start : Nat} {pair : Nat × Nat}
    (h : pair ∈ tree.pairs start) :
    ∃ (a b : Nat) (body : Block), pair = (start + a, start + b) ∧
      Encloses tree.flatten a b body ∧
      ∀ inner ∈ body.pairs (start + a + 1), inner ∈ tree.pairs start := by
  induction tree generalizing start with
  | done => simp [Block.pairs] at h
  | primitive p rest ih =>
      obtain ⟨a, b, body, rfl, hencloses, hinner⟩ := ih h
      refine ⟨1 + a, 1 + b, body, by simp [Nat.add_assoc], ?_, ?_⟩
      · simpa [Block.flatten] using hencloses.append [p.instruction] []
      · intro inner hmem
        rw [← Nat.add_assoc start 1 a] at hmem
        exact hinner inner hmem
  | loop body rest ihBody ihRest =>
      rw [Block.pairs, List.mem_append, List.mem_cons] at h
      have hinBody : ∀ inner ∈ body.pairs (start + 1),
          inner ∈ (Block.loop body rest).pairs start := by
        intro inner hmem
        rw [Block.pairs]
        exact List.mem_append_right _ (List.mem_cons_of_mem _ hmem)
      have hinRest : ∀ inner ∈ rest.pairs (start + body.size + 2),
          inner ∈ (Block.loop body rest).pairs start := by
        intro inner hmem
        rw [Block.pairs]
        exact List.mem_append_left _ hmem
      rcases h with h | rfl | h
      · obtain ⟨a, b, deep, rfl, hencloses, hinner⟩ := ihRest h
        refine ⟨body.size + 2 + a, body.size + 2 + b, deep, ?_, ?_, ?_⟩
        · simp only [Prod.mk.injEq]
          omega
        · have hmore :=
            hencloses.append (.loopOpen :: (body.flatten ++ [.loopClose])) []
          simpa [Block.flatten, Nat.add_assoc] using hmore
        · intro inner hmem
          refine hinRest inner (hinner inner ?_)
          rwa [show start + body.size + 2 + a + 1 =
            start + (body.size + 2 + a) + 1 by omega]
      · exact ⟨0, body.size + 1, body, by simp [Nat.add_assoc],
          ⟨[], rest.flatten, rfl, rfl, by simp⟩, hinBody⟩
      · obtain ⟨a, b, deep, rfl, hencloses, hinner⟩ := ihBody h
        refine ⟨1 + a, 1 + b, deep, by simp [Nat.add_assoc], ?_, ?_⟩
        · have hmore := hencloses.append [.loopOpen] (.loopClose :: rest.flatten)
          simpa [Block.flatten] using hmore
        · intro inner hmem
          rw [← Nat.add_assoc start 1 a] at hmem
          exact hinBody inner (hinner inner hmem)

/-- The pairs of a tree move with its code. -/
theorem pairs_add (tree : Block) (start offset : Nat) :
    tree.pairs (offset + start) =
      (tree.pairs start).map fun pair => (offset + pair.1, offset + pair.2) := by
  induction tree generalizing start with
  | done => rfl
  | primitive p rest ih => exact ih (start + 1)
  | loop body rest ihBody ihRest =>
      simp only [Block.pairs, List.map_append, List.map_cons, ← ihBody, ← ihRest,
        Nat.add_assoc]

end Pairs

section Table

variable {code : List Instruction} {jumps : JumpTable}

/-- The instruction at an index is a bracket. -/
def IsBracket (code : List Instruction) (i : Nat) : Prop :=
  code[i]? = some .loopOpen ∨ code[i]? = some .loopClose

/-- The table leads two indices to each other. -/
def Partners (jumps : JumpTable) (a b : Nat) : Prop :=
  jumps.target? a = some (b : Int) ∧ jumps.target? b = some (a : Int)

/-- Every jump of an accepted code joins the brackets of a loop, and the pairs of
its body are jumps as well. -/
theorem exists_encloses_of_target? (h : resolve code = .ok jumps) {i j : Int}
    (hjump : jumps.target? i = some j) :
    ∃ (a b : Nat) (body : Block), Encloses code a b body ∧ Partners jumps a b ∧
      (i = a ∧ j = b ∨ i = b ∧ j = a) ∧
      ∀ inner ∈ body.pairs (a + 1), Partners jumps inner.1 inner.2 := by
  obtain ⟨tree, rfl⟩ := exists_flatten_eq h
  rw [tree.resolve_flatten, Except.ok.injEq] at h
  subst h
  have hnodup := tree.nodup_endpoints 0
  obtain ⟨pair, hpair, hsides⟩ := (JumpTable.target?_ofPairs_iff hnodup).1 hjump
  have hpartners : ∀ inner ∈ tree.pairs 0,
      Partners (.ofPairs (tree.pairs 0)) inner.1 inner.2 :=
    fun inner hmem => JumpTable.target?_foldl_link_of_mem hnodup hmem .empty
  obtain ⟨a, b, body, rfl, hencloses, hinner⟩ := exists_encloses_of_mem_pairs hpair
  simp only [Nat.zero_add] at hpair hsides hinner
  exact ⟨a, b, body, hencloses, hpartners _ hpair, hsides,
    fun inner hmem => hpartners inner (hinner inner hmem)⟩

/-- The table of an accepted code leads back from where it leads to. -/
theorem target?_symm (h : resolve code = .ok jumps) {i j : Int}
    (hjump : jumps.target? i = some j) :
    jumps.target? j = some i := by
  obtain ⟨a, b, body, -, hpartners, ⟨rfl, rfl⟩ | ⟨rfl, rfl⟩, -⟩ :=
    exists_encloses_of_target? h hjump
  · exact hpartners.2
  · exact hpartners.1

theorem exists_target?_iff (h : resolve code = .ok jumps) (i : Int) :
    (∃ target, jumps.target? i = some target) ↔ ∃ k : Nat, i = k ∧ IsBracket code k := by
  constructor
  · rintro ⟨target, hjump⟩
    obtain ⟨a, b, body, hencloses, -, ⟨rfl, -⟩ | ⟨rfl, -⟩, -⟩ :=
      exists_encloses_of_target? h hjump
    · exact ⟨a, rfl, Or.inl hencloses.getElem?_opening⟩
    · exact ⟨b, rfl, Or.inr hencloses.getElem?_closing⟩
  · rintro ⟨k, rfl, hbracket⟩
    obtain ⟨target, hjump, -⟩ := exists_target_of_resolve h hbracket
    exact ⟨target, hjump⟩

/-- An opening bracket is the left end of a loop. -/
theorem exists_encloses_of_loopOpen (h : resolve code = .ok jumps) {a : Nat}
    (hopen : code[a]? = some .loopOpen) :
    ∃ (b : Nat) (body : Block), Encloses code a b body ∧ Partners jumps a b := by
  obtain ⟨target, hjump, -⟩ := exists_target_of_resolve h (Or.inl hopen)
  obtain ⟨a', b, body, hencloses, hpartners, ⟨ha, -⟩ | ⟨ha, -⟩, -⟩ :=
    exists_encloses_of_target? h hjump
  · obtain rfl := Int.ofNat_inj.1 ha
    exact ⟨b, body, hencloses, hpartners⟩
  · obtain rfl := Int.ofNat_inj.1 ha
    rw [hencloses.getElem?_closing] at hopen
    cases hopen

/-- A closing bracket is the right end of a loop. -/
theorem exists_encloses_of_loopClose (h : resolve code = .ok jumps) {b : Nat}
    (hclose : code[b]? = some .loopClose) :
    ∃ (a : Nat) (body : Block), Encloses code a b body ∧ Partners jumps a b := by
  obtain ⟨target, hjump, -⟩ := exists_target_of_resolve h (Or.inr hclose)
  obtain ⟨a, b', body, hencloses, hpartners, ⟨hb, -⟩ | ⟨hb, -⟩, -⟩ :=
    exists_encloses_of_target? h hjump
  · obtain rfl := Int.ofNat_inj.1 hb
    rw [hencloses.getElem?_opening] at hclose
    cases hclose
  · obtain rfl := Int.ofNat_inj.1 hb
    exact ⟨a, body, hencloses, hpartners⟩

/-- The jumps of the table of a body are jumps of the whole, moved to its place. -/
theorem target?_of_target?_body {body : Block} {a : Nat}
    (hinner : ∀ inner ∈ body.pairs (a + 1), Partners jumps inner.1 inner.2) {i j : Int}
    (hjump : (JumpTable.ofPairs (body.pairs 0)).target? i = some j) :
    0 ≤ i ∧ i < body.size ∧ jumps.target? (i + (a + 1)) = some (j + (a + 1)) := by
  obtain ⟨pair, hpair, hsides⟩ :=
    (JumpTable.target?_ofPairs_iff (body.nodup_endpoints 0)).1 hjump
  have hmoved : (a + 1 + pair.1, a + 1 + pair.2) ∈ body.pairs (a + 1) := by
    rw [show a + 1 = a + 1 + 0 from rfl, pairs_add]
    exact List.mem_map_of_mem hpair
  have hpartners := hinner _ hmoved
  simp only [Partners, Nat.cast_add, Nat.cast_one, add_comm ((a : Int) + 1)] at hpartners
  have hbounds : ∀ e, e = pair.1 ∨ e = pair.2 → e < body.size := by
    intro e he
    have := Block.endpoint_bounds (JumpTable.mem_endpoints.2 ⟨pair, hpair, he⟩)
    omega
  rcases hsides with ⟨rfl, rfl⟩ | ⟨rfl, rfl⟩
  · exact ⟨by omega, by exact_mod_cast hbounds _ (Or.inl rfl), hpartners.1⟩
  · exact ⟨by omega, by exact_mod_cast hbounds _ (Or.inr rfl), hpartners.2⟩

/-- The code between two partners is accepted, and its table is the part of the
whole table that lies between them. -/
theorem resolve_between (h : resolve code = .ok jumps) {a b : Nat} (hab : a < b)
    (hjump : jumps.target? a = some (b : Int)) :
    ∃ inner, resolve ((code.take b).drop (a + 1)) = .ok inner ∧
      ∀ i j : Int, inner.target? i = some j ↔
        0 ≤ i ∧ i < b - a - 1 ∧ jumps.target? (i + (a + 1)) = some (j + (a + 1)) := by
  obtain ⟨a', b', body, hencloses, -, hsides, hinner⟩ := exists_encloses_of_target? h hjump
  obtain ⟨rfl, rfl⟩ : a = a' ∧ b = b' := by
    have := hencloses.lt
    omega
  have hsize := hencloses.size_eq
  have hbody := body.resolve_flatten
  refine ⟨.ofPairs (body.pairs 0), by rw [hencloses.drop_take, hbody], fun i j => ?_⟩
  constructor
  · intro hi
    obtain ⟨h0, hlt, hwhole⟩ := target?_of_target?_body hinner hi
    exact ⟨h0, by omega, hwhole⟩
  · rintro ⟨h0, hlt, hwhole⟩
    obtain ⟨k, rfl⟩ := Int.eq_ofNat_of_zero_le h0
    obtain ⟨place, hplace, hbracket⟩ := (exists_target?_iff h _).1 ⟨_, hwhole⟩
    obtain rfl : place = a + 1 + k := by omega
    have hlocal : IsBracket body.flatten k := by
      rwa [IsBracket, ← hencloses.getElem?_body (by omega : k < body.size)]
    obtain ⟨target, htarget⟩ := (exists_target?_iff hbody k).2 ⟨k, rfl, hlocal⟩
    obtain ⟨-, -, hmoved⟩ := target?_of_target?_body hinner htarget
    rw [hwhole, Option.some.injEq] at hmoved
    obtain rfl : target = j := by omega
    exact htarget

/-- What lies between two partners has its partner between them as well. -/
theorem between_of_target? (h : resolve code = .ok jumps) {a b c d : Int}
    (hab : jumps.target? a = some b) (hcd : jumps.target? c = some d)
    (hac : a < c) (hcb : c < b) :
    a < d ∧ d < b := by
  obtain ⟨a', b', body, hencloses, hpartners, hsides, -⟩ := exists_encloses_of_target? h hab
  have hlt := hencloses.lt
  obtain ⟨rfl, rfl⟩ : a = a' ∧ b = b' := by omega
  obtain ⟨inner, hinner, hiff⟩ := resolve_between h hlt hpartners.1
  have hlocal : inner.target? (c - (a' + 1)) = some (d - (a' + 1)) := by
    refine (hiff _ _).2 ⟨by omega, by omega, ?_⟩
    rw [Int.sub_add_cancel, Int.sub_add_cancel]
    exact hcd
  obtain ⟨h0, hstop, -⟩ := (hiff _ _).1 (target?_symm hinner hlocal)
  omega

/-- **Tables and searches.**  A table that `resolve` gives holds the brackets of the
code and nothing else.  It leads an opening bracket to the closing one at which a
counter that goes forward is back at zero, and a closing bracket to the opening one
at which a counter that goes backward is.  No two loops cross, and between the
brackets of a loop stands code that is accepted, with its table moved to its place. -/
theorem resolve_eq_search (h : resolve code = .ok jumps) :
    (∀ i : Int,
      (∃ target, jumps.target? i = some target) ↔ ∃ k : Nat, i = k ∧ IsBracket code k)
      ∧
    (∀ a : Nat, code[a]? = some .loopOpen →
      ∃ b : Nat, closing? code a = some b ∧ jumps.target? a = some (b : Int) ∧ a < b ∧
        code[b]? = some .loopClose ∧ jumps.target? b = some (a : Int))
      ∧
    (∀ b : Nat, code[b]? = some .loopClose →
      ∃ a : Nat, opening? code b = some a ∧ jumps.target? b = some (a : Int) ∧ a < b ∧
        code[a]? = some .loopOpen ∧ jumps.target? a = some (b : Int))
      ∧
    (∀ a b c d : Int, jumps.target? a = some b → jumps.target? c = some d →
      a < c → c < b → a < d ∧ d < b)
      ∧
    (∀ a b : Nat, a < b → jumps.target? a = some (b : Int) →
      ∃ inner, resolve ((code.take b).drop (a + 1)) = .ok inner ∧
        ∀ i j : Int, inner.target? i = some j ↔
          0 ≤ i ∧ i < b - a - 1 ∧ jumps.target? (i + (a + 1)) = some (j + (a + 1))) := by
  refine ⟨exists_target?_iff h, ?_, ?_, ?_, ?_⟩
  · intro a hopen
    obtain ⟨b, body, hencloses, hskip, hback⟩ := exists_encloses_of_loopOpen h hopen
    exact ⟨b, hencloses.closing?_eq, hskip, hencloses.lt, hencloses.getElem?_closing, hback⟩
  · intro b hclose
    obtain ⟨a, body, hencloses, hskip, hback⟩ := exists_encloses_of_loopClose h hclose
    exact ⟨a, hencloses.opening?_eq, hback, hencloses.lt, hencloses.getElem?_opening, hskip⟩
  · intro a b c d hab hcd hac hcb
    exact between_of_target? h hab hcd hac hcb
  · intro a b hab hjump
    exact resolve_between h hab hjump

/-- The code `[[]+[]]`: the search from the outer bracket passes two loops. -/
theorem resolve_eq_search_two_inside :
    resolve [.loopOpen, .loopOpen, .loopClose, .increment, .loopOpen, .loopClose,
        .loopClose] = .ok (.ofPairs [(0, 6), (4, 5), (1, 2)]) ∧
      closing? [.loopOpen, .loopOpen, .loopClose, .increment, .loopOpen, .loopClose,
        .loopClose] 0 = some 6 ∧
      (JumpTable.ofPairs [(0, 6), (4, 5), (1, 2)]).target? 0 = some 6 := by
  have hresolve : resolve [.loopOpen, .loopOpen, .loopClose, .increment, .loopOpen,
      .loopClose, .loopClose] = .ok (.ofPairs [(0, 6), (4, 5), (1, 2)]) := rfl
  obtain ⟨b, hsearch, hjump, -⟩ := (resolve_eq_search hresolve).2.1 0 rfl
  obtain rfl : 6 = b := Option.some.inj hsearch
  exact ⟨hresolve, hsearch, hjump⟩

end Table

end Loop
end TapeLang
