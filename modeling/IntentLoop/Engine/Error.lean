/-!
# Errors of engines
-/

namespace IntentLoop

inductive EngineError where
  /-- Validation, the effect handler or the reduction broke off at an intent. -/
  | reduction (intent message : String)
  /-- The worker broke off outside a reduction. -/
  | workerLost (reason : String)
  deriving DecidableEq

def EngineError.text : EngineError → String
  | reduction intent message => "Reduction failed for intent " ++ intent ++ ": " ++ message
  | workerLost reason => "Engine worker stopped unexpectedly: " ++ reason

inductive BuildError where
  | missingInitialState
  /-- There is nothing that could run the worker. -/
  | noRuntime
  deriving DecidableEq

def BuildError.text : BuildError → String
  | missingInitialState => "Initial state not specified. Call .initial(state) before .build()"
  | noRuntime => "No tokio runtime available. Call .build() from within a runtime"

end IntentLoop
