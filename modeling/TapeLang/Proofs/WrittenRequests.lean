import Mathlib.Tactic
import TapeLang.CommandLine.Commands
import TapeLang.Service.Routes

/-!
# Requests in writing

A request to run a program can be written as the body of a message to the service,
and as the words of a command line with the input on standard input.

**Input.** A request: a program text, input, a policy for the end of input, a tape
size and a step budget.
**Results.** Both ways of writing can be read back, for every program text and every
input: `Service.ExecuteRequest.ofBody_toJson` reads the body, and
`CommandLine.main?_runWords` says which run the words stand for.  Bytes survive as
text by `Text.latin1Bytes_latin1`, and numbers by `Text.readInteger?_toString`.
-/

namespace TapeLang

theorem ok_bind {ε α β : Type} (a : α) (f : α → Except ε β) : (Except.ok a >>= f) = f a :=
  rfl

namespace Text

section Bytes

theorem toNat_ofNat_byte (b : UInt8) : (Char.ofNat b.toNat).toNat = b.toNat := by
  have hlt := b.toNat_lt
  have hvalid : b.toNat.isValidChar := Or.inl (by omega)
  rw [Char.ofNat, dif_pos hvalid]
  exact UInt32.toNat_ofNatLT

theorem toNat_le_of_mem_latin1 {bytes : List UInt8} {c : Char}
    (h : c ∈ (latin1 bytes).toList) :
    c.toNat ≤ 0xff := by
  rw [latin1, String.toList_ofList, List.mem_map] at h
  obtain ⟨b, -, rfl⟩ := h
  have hlt := b.toNat_lt
  rw [toNat_ofNat_byte]
  omega

/-- Bytes can be read back from the text that has one character for each. -/
theorem latin1Bytes_latin1 (bytes : List UInt8) : latin1Bytes (latin1 bytes) = .ok bytes := by
  rw [latin1Bytes]
  split
  · next wide hwide =>
      have hlt : 0xff < wide.1.toNat := by simpa using List.find?_some hwide
      have hle := toNat_le_of_mem_latin1
        (List.fst_mem_of_mem_zipIdx (List.mem_of_find?_eq_some hwide))
      omega
  · simp only [latin1, String.toList_ofList, List.map_map, Function.comp_def, toNat_ofNat_byte,
      UInt8.ofNat_toNat, List.map_id']

end Bytes

section Numbers

variable {c : Char} {cs : List Char}

theorem toNat_of_isDigit (h : c.isDigit = true) : 48 ≤ c.toNat ∧ c.toNat ≤ 57 := by
  simp only [Char.isDigit, Bool.and_eq_true, decide_eq_true_eq] at h
  exact h

theorem digitValue?_of_isDigit (h : c.isDigit = true) :
    digitValue? c = some (c.toNat - 48) := by
  obtain ⟨hlow, hhigh⟩ := toNat_of_isDigit h
  rw [digitValue?, zeroDigits, List.find?_cons_of_pos]
  · rfl
  · simp only [Bool.and_eq_true, decide_eq_true_eq]
    omega

theorem isBlank_of_isDigit (h : c.isDigit = true) : isBlank c = false := by
  obtain ⟨hlow, hhigh⟩ := toNat_of_isDigit h
  simp only [isBlank, isWhiteSpace, Bool.or_eq_false_iff, Bool.and_eq_false_iff,
    beq_eq_false_iff_ne, decide_eq_false_iff_not]
  omega

theorem trimBy_eq_self {drop : Char → Bool} (h : ∀ c ∈ cs, drop c = false) :
    trimBy drop cs = cs := by
  have hkeep : ∀ l : List Char, (∀ c ∈ l, drop c = false) → l.dropWhile drop = l := by
    intro l hl
    cases l with
    | nil => rfl
    | cons c rest => rw [List.dropWhile_cons_of_neg (by simp [hl])]
  rw [trimBy, hkeep cs h, hkeep _ (by simpa using h), List.reverse_reverse]

theorem splitSign_of_isDigit (h : ∀ c ∈ cs, c.isDigit = true) :
    splitSign cs = (false, cs) := by
  fun_cases splitSign cs with
  | case1 rest => exact absurd (h '+' List.mem_cons_self) (by decide)
  | case2 rest => exact absurd (h '-' List.mem_cons_self) (by decide)
  | case3 => rfl

theorem readDigits?_of_isDigit (hne : cs ≠ []) (h : ∀ c ∈ cs, c.isDigit = true) :
    readDigits? digitValue? cs = some (cs.map fun c => c.toNat - 48) := by
  fun_induction readDigits? digitValue? cs with
  | case1 => contradiction
  | case2 c =>
      rw [digitValue?_of_isDigit (h c List.mem_cons_self)]
      rfl
  | case3 c rest _ => exact absurd (h '_' (by simp)) (by decide)
  | case4 c rest _ => exact absurd (h '_' (by simp)) (by decide)
  | case5 c rest _ _ hc =>
      rw [digitValue?_of_isDigit (h c List.mem_cons_self)] at hc
      cases hc
  | case6 c rest hrest _ d hc ih =>
      rw [digitValue?_of_isDigit (h c List.mem_cons_self)] at hc
      obtain rfl := Option.some.inj hc
      rw [ih hrest fun x hx => h x (List.mem_cons_of_mem c hx)]
      rfl

theorem ofDigits_map_toNat (cs : List Char) :
    ofDigits (cs.map fun c => c.toNat - 48) = Nat.ofDigitChars 10 cs 0 := by
  rw [ofDigits, List.foldl_map]
  rfl

/-- A number without a sign can be read back, if it is not too long. -/
theorem readInteger?_toString {n : Nat} (h : (Nat.toDigits 10 n).length ≤ digitLimit) :
    readInteger? (toString (n : Int)) = some (n : Int) := by
  have hlist : (toString (n : Int)).toList = Nat.toDigits 10 n := Nat.toList_repr
  have hdigits : ∀ c ∈ Nat.toDigits 10 n, c.isDigit = true := fun c hc =>
    Nat.isDigit_of_mem_toDigits (by decide) (by decide) hc
  have hread := readDigits?_of_isDigit Nat.toDigits_ne_nil hdigits
  rw [readInteger?, hlist, trimBy_eq_self fun c hc => isBlank_of_isDigit (hdigits c hc),
    splitSign_of_isDigit hdigits]
  simp only [hread, List.length_map, if_pos h, ofDigits_map_toNat,
    Nat.ofDigitChars_ten_toDigits]
  rfl

end Numbers

end Text

theorem EofPolicy.ofName?_name (eof : EofPolicy) : EofPolicy.ofName? eof.name = some eof := by
  cases eof <;> rfl

theorem Config.positive_int (tooSmall : Setting → ConfigFault) {n : Int} (h : 1 ≤ n) :
    Config.positive tooSmall (.int n) = .ok (.number n) :=
  if_neg (by rw [Setting.value_number]; omega)

namespace Service

/-- The body of a request. -/
def ExecuteRequest.toJson (r : ExecuteRequest) : Json :=
  .object
    [ ("source", .text r.source),
      ("input", .text (Text.latin1 r.input)),
      ("eof", .text r.eof.name),
      ("tape_size", .int r.tapeSize),
      ("max_steps", .int r.maxSteps) ]

theorem readBytes_latin1 (bytes : List UInt8) :
    readBytes (.text (Text.latin1 bytes)) = .ok bytes := by
  rw [readBytes, readText, ok_bind, Text.latin1Bytes_latin1]

theorem readPolicy_name (eof : EofPolicy) : readPolicy (.text eof.name) = .ok eof := by
  rw [readPolicy, EofPolicy.ofJson?, EofPolicy.ofName?_name]

theorem readBounded_int {n : Int} (h : n ∈ Set.Icc 1 1000000) :
    readBounded requestLimit (.int n) = .ok n := by
  obtain ⟨hlow, hhigh⟩ := h
  have hread : readInteger (.int n) = .ok n := by
    simp [readInteger, Json.int]
  rw [readBounded, hread, ok_bind, if_neg (by omega), if_neg (by rw [requestLimit]; omega)]

/-- A request whose numbers are in range can be read back from its body. -/
theorem ExecuteRequest.ofBody_toJson {r : ExecuteRequest}
    (htape : r.tapeSize ∈ Set.Icc 1 1000000) (hsteps : r.maxSteps ∈ Set.Icc 1 1000000) :
    ofBody (some r.toJson) = .ok r := by
  have hsource : requiredField r.toJson "source" readText = .ok r.source := rfl
  have hinput : optionalField r.toJson "input" [] readBytes = .ok r.input :=
    congrArg (Except.mapError _) (readBytes_latin1 r.input)
  have heof : optionalField r.toJson "eof" .error readPolicy = .ok r.eof :=
    congrArg (Except.mapError _) (readPolicy_name r.eof)
  have hsize : optionalField r.toJson "tape_size" defaultTapeSize (readBounded requestLimit) =
      .ok r.tapeSize :=
    congrArg (Except.mapError _) (readBounded_int htape)
  have hlimit : optionalField r.toJson "max_steps" requestLimit (readBounded requestLimit) =
      .ok r.maxSteps :=
    congrArg (Except.mapError _) (readBounded_int hsteps)
  have hbody : readObject (some r.toJson) = .ok r.toJson := rfl
  rw [ofBody, hbody, ok_bind, hsource, hinput, heof, hsize, hlimit]

/-- The configuration of a request is the one that a caller makes of its fields. -/
theorem ExecuteRequest.ofFields_config (r : ExecuteRequest) (htape : 1 ≤ r.tapeSize)
    (hsteps : 1 ≤ r.maxSteps) :
    Config.ofFields (some (.int r.tapeSize)) (some (.text r.eof.name))
      (some (.int r.maxSteps)) = .ok r.config := by
  have hpolicy : Config.policyOf (.text r.eof.name) = .ok r.eof := by
    rw [Config.policyOf, EofPolicy.ofJson?, EofPolicy.ofName?_name]
  have hbudget : Config.budgetOf (.int r.maxSteps) = .ok (some (.number r.maxSteps)) :=
    congrArg (Except.map some) (Config.positive_int .maxStepsTooSmall hsteps)
  simp only [Config.ofFields, Option.getD_some, Json.option, hpolicy, ok_bind,
    Config.positive_int _ htape, hbudget]
  rfl

end Service

namespace CommandLine

section Words

variable (job : Service.ExecuteRequest) (json : Bool)

/-- The words that ask for a run; its input is not among them. -/
def runWords : List String :=
  ["run", "-e", job.source, "--eof", job.eof.name, "--tape-size", toString job.tapeSize,
    "--max-steps", toString job.maxSteps] ++ if json then ["--json-output"] else []

/-- The options in those words. -/
def runOptions : List Typed :=
  [⟨.eval, some job.source⟩, ⟨.eof, some job.eof.name⟩,
    ⟨.tapeSize, some (toString job.tapeSize)⟩, ⟨.maxSteps, some (toString job.maxSteps)⟩] ++
    if json then [⟨.json, none⟩] else []

/-- The values that those options give. -/
def Invocation.ofJob : Invocation :=
  { code? := some job.source
    json := json
    eof := job.eof
    tapeSize := job.tapeSize
    maxSteps? := some job.maxSteps }

end Words

section Reading

/-- An option takes the next word as its value, whatever that word is. -/
theorem split_value (flag : Flag) (name : String) {known : List Spelling} {mixed : Bool}
    {word : String} (hword : word ≠ "--") (hholds : holdsOptions word.toList = true)
    (hread : readWord known word.toList = .ok (.needing flag name)) (value : String)
    (rest : List String) :
    split known mixed (word :: value :: rest) =
      (split known mixed rest).map (.withOptions [⟨flag, some value⟩]) := by
  rw [split, if_neg hword, if_pos hholds, hread]
  rfl

theorem split_runWords (job : Service.ExecuteRequest) (json : Bool) :
    split Command.run.options true ((runWords job json).drop 1) =
      .ok ⟨runOptions job json, []⟩ := by
  have hswitch : split Command.run.options true (if json then ["--json-output"] else []) =
      .ok ⟨if json then [⟨.json, none⟩] else [], []⟩ := by
    cases json <;> decide
  simp only [runWords, List.cons_append, List.drop_succ_cons, List.drop_zero, List.nil_append]
  rw [split_value .eval "-e" (by decide) (by decide) rfl,
    split_value .eof "--eof" (by decide) (by decide) rfl,
    split_value .tapeSize "--tape-size" (by decide) (by decide) rfl,
    split_value .maxSteps "--max-steps" (by decide) (by decide) rfl, hswitch]
  rfl

namespace Invocation

theorem positive_toString (parameter : String) {n : Int} (h : n ∈ Set.Icc 1 1000000) :
    positive parameter (toString n) = .ok n := by
  obtain ⟨hlow, hhigh⟩ := h
  obtain ⟨k, rfl⟩ := Int.eq_ofNat_of_zero_le (show 0 ≤ n by omega)
  have hlength : (Nat.toDigits 10 k).length ≤ 7 :=
    (Nat.length_toDigits_le_iff (by decide) (by decide)).2 (by omega)
  rw [positive, Text.readInteger?_toString (hlength.trans (by decide))]
  exact if_neg (by omega)

theorem policy_name (parameter : String) (eof : EofPolicy) :
    policy parameter eof.name = .ok eof := by
  rw [policy, EofPolicy.ofName?_name]

variable (files : Files) {job : Service.ExecuteRequest} (htape : job.tapeSize ∈ Set.Icc 1 1000000)
  (hsteps : job.maxSteps ∈ Set.Icc 1 1000000) (json : Bool)
include htape hsteps

/-- The options of a run give the values that were written. -/
theorem ofArguments_runOptions :
    ofArguments files ⟨runOptions job json, []⟩ = .ok (ofJob job json) := by
  have hfinal : (Arguments.mk (runOptions job json) []).final = runOptions job json := by
    cases json <;> rfl
  rw [ofArguments, hfinal, runOptions, List.foldlM_append]
  simp only [List.foldlM_cons, List.foldlM_nil, set, Option.getD_some, ok_bind, pure_bind,
    policy_name, positive_toString _ htape, positive_toString _ hsteps]
  cases json <;> rfl

end Invocation

/-- The words of a run carry out that run. -/
theorem main?_runWords (patience : Nat) (files : Files) (stdin : List UInt8)
    {job : Service.ExecuteRequest} (htape : job.tapeSize ∈ Set.Icc 1 1000000)
    (hsteps : job.maxSteps ∈ Set.Icc 1 1000000) (json : Bool) :
    main? patience files stdin (runWords job json) =
      runCommand patience (.ofJob job json) job.source stdin := by
  have hfirst : split globalOptions false (runWords job json) =
      .ok ⟨[], "run" :: (runWords job json).drop 1⟩ := rfl
  have hname : Command.ofName? "run" = some .run := rfl
  rw [main?, hfirst]
  simp only [Arguments.has, List.any_nil, Bool.false_eq_true, if_false, hname,
    Command.perform, split_runWords, ok_bind,
    Invocation.ofArguments_runOptions files htape hsteps]
  rfl

end Reading

end CommandLine
end TapeLang
