import IntentLoop.Engine.Setup
import IntentLoop.Poll.Outcome
/-!
# The states of a transfer

A transfer is submitted once, and is then pending until it is told how the polling for its settlement
came out.
-/

namespace IntentLoop.Transfer

inductive State where
  | idle
  | pending
  | settled (text : String)
  | failed (text : String)
  deriving DecidableEq

inductive Intent where
  | submit
  /-- Polling came to an end. -/
  | outcome (result : Poll.Outcome String)
  /-- Polling failed. -/
  | broken (text : String)
  | reset
  deriving DecidableEq

namespace Intent

def isValidIn : Intent → State → Bool
  | submit, s => s == .idle
  | outcome _, s | broken _, s => s == .pending
  | reset, _ => true

def next : Intent → State
  | submit => .pending
  | outcome (.final v) => .settled v
  | outcome (.timeout v) => .failed ("timeout:" ++ v)
  | outcome (.cancelled v) => .failed ("cancel:" ++ v)
  | broken m => .failed ("error:" ++ m)
  | reset => .idle

def describe : Intent → String
  | submit => "Submit"
  | outcome _ => "Outcome"
  | broken _ => "Broken"
  | reset => "Reset"

end Intent

def rules : Rules State Intent where
  same := (· == ·)
  valid i s := .ok (i.isValidIn s)
  reduce i _ := .ok i.next
  describe := Intent.describe

/-- The only effect: poll for the settlement. -/
inductive Effect where
  | poll
  deriving DecidableEq

def handler : Handler State Intent Effect where
  name := "transfer"
  perform _ i := .ok (if i = .submit then some .poll else none)

def observer : Observer State where
  name := "transfer"
  notice _ := .ok ()

def setup : Setup State Intent Effect where
  rules
  settings := {}
  initial := .idle
  filter := .structural
  handler := some handler
  reporter := .log
  observer := some observer

end IntentLoop.Transfer
