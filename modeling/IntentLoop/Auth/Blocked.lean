/-!
# Blocked callers

A backend that refuses a caller's address says so somewhere in the text of its error. The marker is
looked for without regard to the case of its letters, of which only the 26 of ASCII have one here.
-/

namespace IntentLoop.Auth

def blockedMarker : String := "blocked_ip"

/-- Does the word occur in the text? -/
def occursIn (word : List Char) : List Char → Bool
  | [] => word.isEmpty
  | c :: text => word.isPrefixOf (c :: text) || occursIn word text

/-- Does the text contain the marker? -/
def speaksOfBlocking (text : String) : Bool :=
  occursIn blockedMarker.toList (text.toList.map Char.toLower)

/-- The text under which a blocked call is reported. -/
def blockedText (message : String) : String := "Request blocked by IP: " ++ message

end IntentLoop.Auth
