import IntentLoop.Result
/-!
# Callbacks that break off

The functions that a user hands to an engine may break off instead of answering. What they leave
behind is a panic, which has a text in most cases.
-/

namespace IntentLoop

inductive Panic where
  | text (message : String)
  /-- A payload that is no text. -/
  | wordless
  deriving DecidableEq

def Panic.message : Panic → String
  | text m => m
  | wordless => "non-string panic payload"

/-- The answer of a callback, or its panic. -/
abbrev Attempt (α : Type) := Except Panic α

end IntentLoop
