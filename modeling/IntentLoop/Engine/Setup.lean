import IntentLoop.Engine.Panic
import IntentLoop.Reporter
import IntentLoop.Settings
/-!
# What an engine is made of

An engine holds a state and changes it by intents. How intents act on states is a set of `Rules`; the
rest is chosen engine by engine: which intents count as repeats of the one before, which effects go
with an intent, who is told of new states and who of failures.

States are compared by the rules' own `same`, which may be coarser than identity: two states that are
the same to an engine's subscribers may still differ in what later intents make of them.
-/

namespace IntentLoop

/-- How intents `ι` act on states `σ`. -/
structure Rules (σ ι : Type) where
  same : σ → σ → Bool
  /-- May the intent be applied to the state? -/
  valid : ι → σ → Attempt Bool
  reduce : ι → σ → Attempt σ
  /-- The intent as error texts speak of it. -/
  describe : ι → String

/-- Decides whether an intent repeats the one received just before it. -/
structure IntentFilter (ι : Type) where
  repeats : (previous next : ι) → Attempt Bool

namespace IntentFilter

variable {ι : Type}

/-- An intent that is equal to the one before it is a repeat. -/
def structural [BEq ι] : IntentFilter ι := ⟨fun previous next => .ok (previous == next)⟩

/-- Nothing is a repeat. -/
def allowAll : IntentFilter ι := ⟨fun _ _ => .ok false⟩

/-- A filter that never breaks off. -/
def ofPred (p : ι → ι → Bool) : IntentFilter ι := ⟨fun previous next => .ok (p previous next)⟩

end IntentFilter

/-- Decides which effect, if any, goes with an accepted intent, by the state before it. -/
structure Handler (σ ι ε : Type) where
  name : String
  perform : σ → ι → Attempt (Option ε)

/-- Is told of every published state but the first. -/
structure Observer (σ : Type) where
  name : String
  notice : σ → Attempt Unit

structure Setup (σ ι ε : Type) where
  rules : Rules σ ι
  settings : EngineSettings
  initial : σ
  filter : IntentFilter ι
  handler : Option (Handler σ ι ε)
  reporter : Reporter
  observer : Option (Observer σ)

end IntentLoop
