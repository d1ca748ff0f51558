import IntentLoop.Auth.Access
/-!
# Executors that share a holder

A holder keeps the token of a family. Executors are made for it, or are clones of earlier ones, and a
reporter may be attached to each. What is asked of the family is asked through one of these handles: a
token or an invalidation of the holder itself or of any executor, a header or a request of an executor.

An executor passes on to its holder whatever has to do with the token, so that an `Access.Order` comes
down to an act of the access; only reports depend on the executor.
-/

namespace IntentLoop.Auth

/-- How an executor comes about. -/
structure Making where
  /-- Which of the earlier ones it is cloned from, if any. -/
  clone : Option Nat := none
  /-- The reporter that is attached to it after that, if any. -/
  reporter : Option Reporter := none
  deriving DecidableEq

/-- The executor that is made when some are there already. A clone keeps the reporter of the executor
it was made from, unless one is attached to it. -/
def Making.executor (made : List Executor) (m : Making) : Executor :=
  { reporter := m.reporter.or ((m.clone.bind (made[·]?)).getD {}).reporter }

def makeAll (makings : List Making) : List Executor :=
  makings.foldl (fun made m => made ++ [m.executor made]) []

/-- Through what something is asked of the family. -/
inductive Handle where
  | holder
  | executor (executor : Nat)
  deriving DecidableEq

namespace Access

/-- What is done to the family, and through which handle if that is for somebody to choose. -/
inductive Order (ε φ α : Type) where
  | current (via : Handle)
  | header (executor : Nat)
  | authenticate (executor : Nat)
  | invalidate (via : Handle)
  /-- Callers move, and time passes. -/
  | proceed (act : Act ε φ α)

def Order.act {ε φ α : Type} : Order ε φ α → Act ε φ α
  | .current _ => .begin .token
  | .header executor => .begin (.header executor)
  | .authenticate executor => .begin (.request executor)
  | .invalidate _ => .invalidate
  | .proceed act => act

end Access

end IntentLoop.Auth
