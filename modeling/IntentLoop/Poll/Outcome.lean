/-!
# How a poll session ends

A session that does not fail ends in one of three ways, and each carries the value that was fetched
last.
-/

namespace IntentLoop.Poll

inductive Outcome (α : Type) where
  /-- The matcher accepted the value. -/
  | final (value : α)
  /-- The budget of fetches was used up. -/
  | timeout (value : α)
  /-- A cancel was noticed. -/
  | cancelled (value : α)
  deriving DecidableEq

namespace Outcome

variable {α β : Type}

def value : Outcome α → α
  | final v | timeout v | cancelled v => v

def isFinal : Outcome α → Bool
  | final _ => true
  | _ => false

def isTimeout : Outcome α → Bool
  | timeout _ => true
  | _ => false

def isCancelled : Outcome α → Bool
  | cancelled _ => true
  | _ => false

def map (f : α → β) : Outcome α → Outcome β
  | final v => final (f v)
  | timeout v => timeout (f v)
  | cancelled v => cancelled (f v)

/-- Same way of ending and same value, values being compared by `eq`. -/
def sameBy (eq : α → α → Bool) : Outcome α → Outcome α → Bool
  | final v, final w | timeout v, timeout w | cancelled v, cancelled w => eq v w
  | _, _ => false

end Outcome

end IntentLoop.Poll
