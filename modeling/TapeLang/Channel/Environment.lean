import TapeLang.Channel.Sink
import TapeLang.Channel.Source

/-!
# Environments

One source and one sink: everything outside a run that the run can touch.  An
environment outlives the run, so that a later run goes on reading where an
earlier one stopped.
-/

namespace TapeLang

/-- A source paired with a sink. -/
structure Environment where
  source : Source := .ofBytes []
  sink : Sink := .newBuffer
deriving DecidableEq

namespace Environment

/-- Input in memory, and output that is kept. -/
def ofBytes (bytes : List UInt8) : Environment :=
  { source := .ofBytes bytes, sink := .newBuffer }

/-- The bytes written so far, where the sink keeps them. -/
def captured (env : Environment) : List UInt8 :=
  env.sink.captured

def outputSize (env : Environment) : Nat :=
  env.sink.size

end Environment
end TapeLang
