import IntentLoop.Auth.Token
import IntentLoop.Scenario.Script
/-!
# A scripted source of tokens

Where the tokens of a scenario come from. What the script does not say is answered by a token of which
the secret is told by the number of the call, and which never expires.
-/

namespace IntentLoop.Scenario

open IntentLoop.Auth (Token)

/-- What the wall clock shows, which stands still while a scripted run has time pass: some instant of
2025. -/
def wallClock : Timestamp := { secs := 1735689600 }

/-- When a token expires. -/
inductive Expiry where
  | never
  | past
  | future

def Expiry.instant : Expiry → Option Timestamp
  | never => none
  | past => some { secs := 946684800 }
  | future => some { secs := 253402214400 }

/-- What the source answers, and with which expiry. -/
structure TokenReply where
  reply : Reply String Unit
  expiry : Expiry := .never

abbrev Source := List TokenReply

namespace Source

/-- The reply to call number `n`, the first call having number 1. -/
def reply (s : Source) (n : Nat) : TokenReply := s[n - 1]?.getD { reply := {} }

/-- How long call number `n` takes. -/
def delay (s : Source) (n : Nat) : Duration := (s.reply n).reply.delay

/-- The token that call number `n` brings. -/
def token (s : Source) (n : Nat) : Except String Token :=
  let r := s.reply n
  (r.reply.result ("token-" ++ toString n)).map fun secret =>
    { secret, expiresAt := r.expiry.instant }

end Source

end IntentLoop.Scenario
