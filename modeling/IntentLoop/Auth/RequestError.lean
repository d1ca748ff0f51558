/-!
# Errors of requests

A request fails because there was no token for it, or by itself.
-/

namespace IntentLoop.Auth

inductive RequestError where
  | login (text : String)
  | request (text : String)
  deriving DecidableEq

def RequestError.text : RequestError → String
  | login text => text
  | request text => "request failed: " ++ text

end IntentLoop.Auth
