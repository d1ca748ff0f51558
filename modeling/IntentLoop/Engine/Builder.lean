import IntentLoop.Engine.Error
import IntentLoop.Engine.Setup
/-!
# Building an engine

A builder collects the parts of an engine one by one; a part that is set again replaces the earlier
one. Only the initial state has no default.
-/

namespace IntentLoop

structure Builder (σ ι ε : Type) where
  filter : IntentFilter ι
  initial : Option σ := none
  settings : EngineSettings := {}
  handler : Option (Handler σ ι ε) := none
  reporter : Reporter := .log
  observer : Option (Observer σ) := none

namespace Builder

variable {σ ι ε : Type}

/-- A builder on which nothing was set. An engine built for debugging is strict unless it is told
otherwise, and any other is not. -/
def withFilter (filter : IntentFilter ι) (debug : Bool := true) : Builder σ ι ε :=
  { filter, settings := { strict := debug } }

/-- A builder whose engine drops intents that are equal to the one before. -/
def new [BEq ι] (debug : Bool := true) : Builder σ ι ε := withFilter .structural debug

/-- The builder to take where nothing is said of it. -/
def default [BEq ι] (debug : Bool := true) : Builder σ ι ε := new debug

/-- Where a builder comes from. -/
inductive Origin (ι : Type) where
  | new
  | default
  | withFilter (filter : IntentFilter ι)

def Origin.builder [BEq ι] (debug : Bool) : Origin ι → Builder σ ι ε
  | .new => .new debug
  | .default => .default debug
  | .withFilter filter => .withFilter filter debug

/-- One call on a builder. -/
inductive Call (σ ι ε : Type) where
  | initial (state : σ)
  | name (name : String)
  | strict (strict : Bool)
  /-- Sets the name and the strictness. -/
  | settings (settings : EngineSettings)
  | filter (filter : IntentFilter ι)
  | handler (handler : Handler σ ι ε)
  | reporter (reporter : Reporter)
  | observer (observer : Observer σ)

def call (b : Builder σ ι ε) : Call σ ι ε → Builder σ ι ε
  | .initial state => { b with initial := some state }
  | .name name => { b with settings := { b.settings with name } }
  | .strict strict => { b with settings := { b.settings with strict } }
  | .settings settings => { b with settings }
  | .filter filter => { b with filter }
  | .handler handler => { b with handler := some handler }
  | .reporter reporter => { b with reporter }
  | .observer observer => { b with observer := some observer }

def calls (b : Builder σ ι ε) (cs : List (Call σ ι ε)) : Builder σ ι ε := cs.foldl call b

/-- The setup that the builder has collected. A missing state is noticed before a missing runtime. -/
def build (b : Builder σ ι ε) (rules : Rules σ ι) (runtime : Bool) :
    Except BuildError (Setup σ ι ε) :=
  match b.initial with
  | none => .error .missingInitialState
  | some initial =>
    if runtime then
      .ok { rules, settings := b.settings, initial, filter := b.filter, handler := b.handler
            reporter := b.reporter, observer := b.observer }
    else .error .noRuntime

/-- The setup of an engine that has an initial state and otherwise all defaults. -/
def pure [BEq ι] (initial : σ) (rules : Rules σ ι) (runtime : Bool) (debug : Bool := true) :
    Except BuildError (Setup σ ι ε) :=
  ((new debug).call (.initial initial)).build rules runtime

end Builder

end IntentLoop
