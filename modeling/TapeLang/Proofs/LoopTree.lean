import Mathlib.Tactic
import TapeLang.Loop.JumpTable

/-!
# Loop trees

Code whose brackets match is a tree: a row of primitive operations and loops,
each loop with a row of its own as its body.

**Input.** A sequence of instructions, or a tree.
**Results.** `Block.flatten` writes a tree as code.  `Block.flatten_injective`
says that no code has two trees, and `Block.resolve_flatten` gives the jump
table of the code of a tree.  `Loop.exists_flatten_eq` finds the tree of every
code that `resolve` accepts.
-/

namespace TapeLang

/-- The operations that are no brackets. -/
inductive Primitive where
  | moveRight
  | moveLeft
  | increment
  | decrement
  | output
  | input
deriving DecidableEq

namespace Primitive

/-- A primitive operation as an instruction. -/
def instruction : Primitive → Instruction
  | .moveRight => .moveRight
  | .moveLeft => .moveLeft
  | .increment => .increment
  | .decrement => .decrement
  | .output => .output
  | .input => .input

theorem instruction_injective {p q : Primitive} (h : p.instruction = q.instruction) :
    p = q := by
  cases p <;> cases q <;> simp_all [instruction]

theorem instruction_ne_loopOpen (p : Primitive) : p.instruction ≠ .loopOpen := by
  cases p <;> decide

theorem instruction_ne_loopClose (p : Primitive) : p.instruction ≠ .loopClose := by
  cases p <;> decide

/-- An instruction that is no bracket is a primitive operation. -/
theorem exists_instruction_eq {x : Instruction} (hopen : x ≠ .loopOpen)
    (hclose : x ≠ .loopClose) :
    ∃ p : Primitive, p.instruction = x := by
  cases x with
  | moveRight => exact ⟨.moveRight, rfl⟩
  | moveLeft => exact ⟨.moveLeft, rfl⟩
  | increment => exact ⟨.increment, rfl⟩
  | decrement => exact ⟨.decrement, rfl⟩
  | output => exact ⟨.output, rfl⟩
  | input => exact ⟨.input, rfl⟩
  | loopOpen => exact absurd rfl hopen
  | loopClose => exact absurd rfl hclose

end Primitive

/-- A row of primitive operations and loops. -/
inductive Block where
  /-- The end of the row. -/
  | done
  /-- A primitive operation, and the rest of the row. -/
  | primitive (p : Primitive) (rest : Block)
  /-- A loop with its body, and the rest of the row. -/
  | loop (body rest : Block)
deriving DecidableEq

namespace Block

/-- The code of a row. -/
def flatten : Block → List Instruction
  | .done => []
  | .primitive p rest => p.instruction :: rest.flatten
  | .loop body rest => .loopOpen :: (body.flatten ++ .loopClose :: rest.flatten)

/-- The number of instructions in the code of a row. -/
def size : Block → Nat
  | .done => 0
  | .primitive _ rest => rest.size + 1
  | .loop body rest => body.size + rest.size + 2

/-- One row after the other. -/
def append : Block → Block → Block
  | .done, last => last
  | .primitive p rest, last => .primitive p (rest.append last)
  | .loop body rest, last => .loop body (rest.append last)

/-- The brackets of a row whose code begins at an index, as pairs of opening and
closing index, latest first. -/
def pairs : Nat → Block → List (Nat × Nat)
  | _, .done => []
  | start, .primitive _ rest => pairs (start + 1) rest
  | start, .loop body rest =>
      pairs (start + body.size + 2) rest ++
        (start, start + body.size + 1) :: pairs (start + 1) body

@[simp] theorem length_flatten (b : Block) : b.flatten.length = b.size := by
  induction b with
  | done => rfl
  | primitive p rest ih => simp [flatten, size, ih]
  | loop body rest ihBody ihRest =>
      simp only [flatten, size, List.length_cons, List.length_append, ihBody, ihRest]
      omega

@[simp] theorem flatten_append (b last : Block) :
    (b.append last).flatten = b.flatten ++ last.flatten := by
  induction b with
  | done => rfl
  | primitive p rest ih => simp [append, flatten, ih]
  | loop body rest _ ih => simp [append, flatten, ih]

section Unique

/-- Code at which a row has to end: a closing bracket, or nothing. -/
def Ends (code : List Instruction) : Prop :=
  ∀ x ∈ code.head?, x = .loopClose

theorem ends_nil : Ends [] := by
  simp [Ends]

theorem ends_loopClose (code : List Instruction) : Ends (.loopClose :: code) := by
  simp [Ends]

theorem not_ends_primitive (p : Primitive) (code : List Instruction) :
    ¬ Ends (p.instruction :: code) := by
  intro h
  exact p.instruction_ne_loopClose (h _ rfl)

theorem not_ends_loopOpen (code : List Instruction) : ¬ Ends (.loopOpen :: code) := by
  intro h
  exact absurd (h _ rfl) (by decide)

/-- A row can be read off the front of a code in one way only. -/
theorem flatten_append_inj {a b : Block} {x y : List Instruction}
    (hx : Ends x) (hy : Ends y) (h : a.flatten ++ x = b.flatten ++ y) :
    a = b ∧ x = y := by
  induction a generalizing b x y with
  | done =>
      cases b with
      | done => exact ⟨rfl, h⟩
      | primitive q rest =>
          simp only [flatten, List.nil_append, List.cons_append] at h
          exact absurd (h ▸ hx) (not_ends_primitive q _)
      | loop body rest =>
          simp only [flatten, List.nil_append, List.cons_append] at h
          exact absurd (h ▸ hx) (not_ends_loopOpen _)
  | primitive p rest ih =>
      cases b with
      | done =>
          simp only [flatten, List.nil_append, List.cons_append] at h
          exact absurd (h.symm ▸ hy) (not_ends_primitive p _)
      | primitive q rest' =>
          simp only [flatten, List.cons_append] at h
          obtain ⟨hp, htail⟩ := List.cons.inj h
          obtain ⟨rfl, hxy⟩ := ih hx hy htail
          exact ⟨by rw [Primitive.instruction_injective hp], hxy⟩
      | loop body rest' =>
          simp only [flatten, List.cons_append] at h
          exact absurd (List.cons.inj h).1 p.instruction_ne_loopOpen
  | loop body rest ihBody ihRest =>
      cases b with
      | done =>
          simp only [flatten, List.nil_append, List.cons_append] at h
          exact absurd (h.symm ▸ hy) (not_ends_loopOpen _)
      | primitive q rest' =>
          simp only [flatten, List.cons_append] at h
          exact absurd (List.cons.inj h).1.symm q.instruction_ne_loopOpen
      | loop body' rest' =>
          simp only [flatten, List.cons_append, List.append_assoc] at h
          obtain ⟨rfl, hclose⟩ :=
            ihBody (ends_loopClose _) (ends_loopClose _) (List.cons.inj h).2
          obtain ⟨rfl, hxy⟩ := ihRest hx hy (List.cons.inj hclose).2
          exact ⟨rfl, hxy⟩

/-- No code has two trees. -/
theorem flatten_injective {a b : Block} (h : a.flatten = b.flatten) : a = b := by
  refine (flatten_append_inj ends_nil ends_nil ?_).1
  rw [h]

end Unique

section Scan

open Loop

/-- The pass over the code of a row finds the pairs of the row, and leaves what
was pending or stray as it was. -/
theorem foldl_visit_flatten (b : Block) (s : Scan) :
    b.flatten.foldl Scan.visit s =
      { s with
        position := s.position + b.size
        pairs := b.pairs s.position ++ s.pairs } := by
  induction b generalizing s with
  | done => rfl
  | primitive p rest ih =>
      have hvisit : s.visit p.instruction = { s with position := s.position + 1 } := by
        cases p <;> rfl
      rw [flatten, List.foldl_cons, hvisit, ih]
      simp only [size, pairs, Scan.mk.injEq, and_true]
      omega
  | loop body rest ihBody ihRest =>
      have hclosing : s.position + 1 + body.size = s.position + body.size + 1 := by
        omega
      have hlast : s.position + body.size + 2 + rest.size =
          s.position + (body.size + rest.size + 2) := by
        omega
      rw [flatten, List.foldl_cons, List.foldl_append, ihBody, List.foldl_cons, ihRest]
      simp only [Scan.visit, size, pairs, List.append_assoc, List.cons_append, hclosing,
        hlast]

theorem scan_flatten (b : Block) :
    scan b.flatten =
      { position := b.size, pending := [], pairs := b.pairs 0, strays := [] } := by
  rw [scan, foldl_visit_flatten]
  simp [Scan.start]

/-- The code of a row is accepted, and its table holds the pairs of the row. -/
theorem resolve_flatten (b : Block) :
    resolve b.flatten = .ok (.ofPairs (b.pairs 0)) := by
  rw [resolve, scan_flatten]
  rfl

end Scan

end Block

namespace Loop

section Tree

/-- A code is accepted if and only if the pass leaves nothing stray or pending. -/
theorem resolve_eq_ok_iff {code : List Instruction} {table : JumpTable} :
    resolve code = .ok table ↔
      (scan code).strays = [] ∧ (scan code).pending = [] ∧
        table = .ofPairs (scan code).pairs := by
  have hs : (scan code).strayCloses = [] ↔ (scan code).strays = [] :=
    List.reverse_eq_nil_iff
  have hp : (scan code).unclosedOpens = [] ↔ (scan code).pending = [] :=
    List.reverse_eq_nil_iff
  rw [resolve, Scan.table, ← hs, ← hp]
  split
  · next stray rest hstray =>
      simp [hstray]
  · next opening rest hstray hopening =>
      simp [hopening]
  · next hstray hopening =>
      simp [hstray, hopening, eq_comm]

/-- The code before the innermost pending loop, given the rows of the pending
loops, innermost first: each row, and the bracket that opens the next. -/
def layers : List Block → List Instruction
  | [] => []
  | row :: outer => layers outer ++ (row.flatten ++ [.loopOpen])

/-- Stray brackets are never forgotten. -/
theorem strays_eq_nil_of_visit {s : Scan} {x : Instruction}
    (h : (s.visit x).strays = []) : s.strays = [] := by
  cases x with
  | loopClose =>
      cases hp : s.pending with
      | nil => simp [Scan.visit, hp] at h
      | cons opening outer => simpa [Scan.visit, hp] using h
  | _ => exact h

/-- Code without stray brackets is a row for every pending loop and one more for
what follows the innermost of them.  A closing bracket makes that last row the body of a
loop at the end of the row before it. -/
theorem exists_layers (code : List Instruction) (h : (scan code).strays = []) :
    ∃ (outer : List Block) (inner : Block),
      outer.length = (scan code).pending.length ∧
        code = layers outer ++ inner.flatten := by
  induction code using List.reverseRecOn with
  | nil => exact ⟨[], .done, rfl, rfl⟩
  | append_singleton code x ih =>
      have hscan : scan (code ++ [x]) = (scan code).visit x := scan_append code [x]
      rw [hscan] at h ⊢
      obtain ⟨outer, inner, hlen, hcode⟩ := ih (strays_eq_nil_of_visit h)
      by_cases hopen : x = .loopOpen
      · subst hopen
        refine ⟨inner :: outer, .done, by simp [Scan.visit, hlen], ?_⟩
        rw [hcode]
        simp [layers, Block.flatten]
      by_cases hclose : x = .loopClose
      · subst hclose
        cases hp : (scan code).pending with
        | nil => simp [Scan.visit, hp] at h
        | cons opening others =>
            rw [hp] at hlen
            obtain ⟨row, rows, rfl⟩ := List.exists_cons_of_length_eq_add_one hlen
            refine ⟨rows, row.append (.loop inner .done), ?_, ?_⟩
            · simpa [Scan.visit, hp] using hlen
            · rw [hcode]
              simp [layers, Block.flatten]
      · obtain ⟨p, rfl⟩ := Primitive.exists_instruction_eq hopen hclose
        refine ⟨outer, inner.append (.primitive p .done), ?_, ?_⟩
        · rw [hlen]
          cases p <;> rfl
        · rw [hcode]
          simp [Block.flatten]

/-- Every code that is accepted has a tree. -/
theorem exists_flatten_eq {code : List Instruction} {table : JumpTable}
    (h : resolve code = .ok table) :
    ∃ b : Block, b.flatten = code := by
  obtain ⟨hstrays, hpending, -⟩ := resolve_eq_ok_iff.1 h
  obtain ⟨outer, inner, hlen, hcode⟩ := exists_layers code hstrays
  rw [hpending] at hlen
  obtain rfl : outer = [] := List.eq_nil_of_length_eq_zero hlen
  exact ⟨inner, hcode.symm⟩

end Tree

end Loop
end TapeLang
