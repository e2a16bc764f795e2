import Mathlib.Tactic
import TapeLang.Proofs.ValidationReports

/-!
# Comments carry no meaning

A program text is its instructions with comments between them.

**Input.** Two program texts, of any characters.
**Algorithm.** Reading a text and writing it again leaves the characters of the alphabet,
in order: these are the `symbols` of the text.  Everything that is done with a text begins
by reading its instructions, so that two texts with the same symbols are told apart by
nothing.
**Results.** `tokenize_eq_iff`: two texts have the same instructions if and only if they
have the same symbols.  `comments_carry_no_meaning` follows this through loading,
interpreting, running and checking, whether the brackets match or not.
-/

namespace TapeLang

/-- The characters that stand for instructions. -/
def alphabet : List Char :=
  ['>', '<', '+', '-', '.', ',', '[', ']']

/-- The characters of a text that stand for instructions, in order. -/
def symbols (text : String) : List Char :=
  text.toList.filter (· ∈ alphabet)

section Reading

variable {s t : String}

theorem isSymbol_eq (c : Char) : Instruction.isSymbol c = decide (c ∈ alphabet) := by
  rw [Bool.eq_iff_iff, decide_eq_true_iff]
  constructor
  · intro h
    obtain ⟨x, hx⟩ := Option.isSome_iff_exists.1 h
    rw [← Instruction.symbol_eq_of_ofSymbol? hx]
    cases x <;> decide
  · intro h
    simp only [alphabet, List.mem_cons, List.not_mem_nil, or_false] at h
    rcases h with rfl | rfl | rfl | rfl | rfl | rfl | rfl | rfl <;> rfl

/-- Canonical text has the symbols of the text, and nothing else. -/
theorem toList_render_tokenize_eq_symbols (text : String) :
    (render (tokenize text)).toList = symbols text := by
  rw [toList_render_tokenize, symbols]
  exact List.filter_congr fun c _ => isSymbol_eq c

theorem symbols_render (code : List Instruction) :
    symbols (render code) = (render code).toList := by
  rw [← toList_render_tokenize_eq_symbols, tokenize_render]

/-- The instructions of a text are those of its symbols. -/
theorem tokenize_eq_iff : tokenize s = tokenize t ↔ symbols s = symbols t := by
  constructor
  · intro h
    rw [← toList_render_tokenize_eq_symbols, h, toList_render_tokenize_eq_symbols]
  · intro h
    have hrender : render (tokenize s) = render (tokenize t) := by
      rw [← String.toList_inj, toList_render_tokenize_eq_symbols, h,
        toList_render_tokenize_eq_symbols]
    rw [← tokenize_render (tokenize s), hrender, tokenize_render]

end Reading

namespace Program

variable {s t : String} {program other : Program}

theorem load_congr (h : tokenize s = tokenize t) : load s = load t := by
  rw [load, load, h]

theorem text_of_load (h : load s = .ok program) : program.text = render (tokenize s) := by
  obtain ⟨jumps, -, rfl⟩ := exists_resolve_of_load h
  rfl

/-- The text of a program that was loaded has the symbols that were read. -/
theorem symbols_text_of_load (h : load s = .ok program) : symbols program.text = symbols s := by
  rw [text_of_load h, symbols_render, toList_render_tokenize_eq_symbols]

theorem code_of_load (h : load s = .ok program) : program.code = (tokenize s).toArray := by
  obtain ⟨jumps, -, rfl⟩ := exists_resolve_of_load h
  rfl

/-- Programs that were loaded are the same if and only if the symbols of their texts are. -/
theorem eq_iff_of_load (hs : load s = .ok program) (ht : load t = .ok other) :
    program = other ↔ symbols s = symbols t := by
  rw [← tokenize_eq_iff]
  constructor
  · rintro rfl
    exact List.toArray_inj ((code_of_load hs).symm.trans (code_of_load ht))
  · intro h
    exact Except.ok.inj (hs.symm.trans ((load_congr h).trans ht))

/-- Comparing two programs that were loaded finds out whether they are equal. -/
theorem same_iff_of_load (hs : load s = .ok program) (ht : load t = .ok other) :
    program.same other = true ↔ symbols s = symbols t := by
  constructor
  · intro h
    rw [same, Bool.and_eq_true, beq_iff_eq] at h
    rw [← tokenize_eq_iff]
    exact List.toArray_inj ((code_of_load hs).symm.trans (h.1.trans (code_of_load ht)))
  · intro h
    obtain rfl := (eq_iff_of_load hs ht).2 h
    simp [same]

end Program

section Meaning

variable {s t : String}

theorem attempt_congr (h : tokenize s = tokenize t) (patience : Nat) (config : Config)
    (env : Environment) :
    attempt patience config (.text s) env = attempt patience config (.text t) env := by
  rw [attempt, attempt, Script.load, Script.load, Program.load_congr h]

theorem validate_congr (h : tokenize s = tokenize t) : validate s = validate t := by
  rw [validate, validate, h]

theorem CommandLine.checkCommand_congr (h : tokenize s = tokenize t)
    {inv other : CommandLine.Invocation} (hjson : inv.json = other.json) :
    checkCommand inv s = checkCommand other t := by
  rw [checkCommand, checkCommand, validate_congr h, hjson]

/-- **Comments carry no meaning.**  Canonical text reads back, it is the text without the
characters that stand for no instruction, and reading goes part by part.  Two texts with the
same symbols, such as a text that was loaded and the text of its program, have the same
jump table or fault and the same list of faults; they are loaded as the same program,
interpreted alike in every environment, run alike on every input, and reported alike by
the service and the command line.  Two texts that are loaded give the same program if and
only if they have the same symbols. -/
theorem comments_carry_no_meaning :
    (∀ code, tokenize (render code) = code)
      ∧
    (∀ text, (render (tokenize text)).toList = symbols text)
      ∧
    (∀ first second, tokenize (first ++ second) = tokenize first ++ tokenize second)
      ∧
    (∀ text program, Program.load text = .ok program → symbols program.text = symbols text)
      ∧
    (∀ s t, symbols s = symbols t →
      Loop.resolve (tokenize s) = Loop.resolve (tokenize t)
        ∧
      Loop.faults (tokenize s) = Loop.faults (tokenize t)
        ∧
      Program.load s = Program.load t
        ∧
      (∀ patience config env,
        interpret patience config (.text s) env = interpret patience config (.text t) env)
        ∧
      (∀ patience config data,
        runText patience config s data = runText patience config t data)
        ∧
      (∀ patience probe fields others,
        (Json.object fields).field? "source" = some (.text s) →
        (Json.object others).field? "source" = some (.text t) →
        Service.respond patience probe ⟨"POST", "/api/v1/validate", some (.object fields)⟩ =
          Service.respond patience probe ⟨"POST", "/api/v1/validate", some (.object others)⟩)
        ∧
      (∀ patience files stdin words others inv other,
        CommandLine.Command.check.Poses files stdin words inv s →
        CommandLine.Command.check.Poses files stdin others other t →
        inv.json = other.json →
        CommandLine.main? patience files stdin ("check" :: words) =
          CommandLine.main? patience files stdin ("check" :: others)))
      ∧
    (∀ s t program other, Program.load s = .ok program → Program.load t = .ok other →
      (program = other ↔ symbols s = symbols t)
        ∧
      (program.same other = true ↔ symbols s = symbols t)) := by
  refine ⟨tokenize_render, toList_render_tokenize_eq_symbols, tokenize_append,
    fun text program => Program.symbols_text_of_load, fun s t hsymbols => ?_,
    fun s t program other hs ht =>
      ⟨Program.eq_iff_of_load hs ht, Program.same_iff_of_load hs ht⟩⟩
  have h : tokenize s = tokenize t := tokenize_eq_iff.2 hsymbols
  refine ⟨by rw [h], by rw [h], Program.load_congr h, fun patience config env => ?_,
    fun patience config data => ?_, fun patience probe fields others hs ht => ?_,
    fun patience files stdin words others inv other hs ht hjson => ?_⟩
  · rw [interpret, interpret, attempt_congr h]
  · rw [runText, runText, attempt_congr h]
  · rw [Service.respond_validate hs, Service.respond_validate ht, validate_congr h]
  · rw [CommandLine.main?_check hs, CommandLine.main?_check ht,
      CommandLine.checkCommand_congr h hjson]

/-- The text `+[-]` with comments, one of them a minus sign that is no instruction, and a
bracket without a partner between comments. -/
theorem comments_carry_no_meaning_loop :
    symbols "more + while [ − less - ]" = symbols "+[-]" ∧
      (∃ program, Program.load "more + while [ − less - ]" = .ok program ∧
        Program.load program.text = .ok program ∧
        program.same program = true) ∧
      runText 9 {} "more + while [ − less - ]" [] = runText 9 {} "+[-]" [] ∧
      Program.load "no ] partner" = .error (.unmatchedClose 0) := by
  have hsymbols : symbols "more + while [ − less - ]" = symbols "+[-]" := by decide
  have hbracket : symbols "no ] partner" = symbols "]" := by decide
  obtain ⟨-, -, -, htext, hmeaning, hprograms⟩ := comments_carry_no_meaning
  obtain ⟨-, -, hload, -, hrun, -⟩ := hmeaning _ _ hsymbols
  obtain ⟨program, hprogram⟩ : ∃ program, Program.load "+[-]" = .ok program := ⟨_, rfl⟩
  obtain ⟨-, -, hsame, -⟩ := hmeaning _ _ (htext _ _ hprogram)
  obtain ⟨-, -, hstray, -⟩ := hmeaning _ _ hbracket
  refine ⟨hsymbols, ⟨program, hload.trans hprogram, hsame.trans hprogram, ?_⟩, hrun 9 {} [],
    hstray.trans rfl⟩
  exact (hprograms _ _ _ _ hprogram hprogram).2.2 rfl

end Meaning

end TapeLang
