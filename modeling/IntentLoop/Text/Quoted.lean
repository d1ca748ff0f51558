import IntentLoop.Text.Digits
/-!
# Quoted text

A text in double quotes, written so that every character of it can be seen: quotes, backslashes,
line ends and tabs behind a backslash, everything else that leaves no mark of its own by its number.
-/

namespace IntentLoop.Text

def hex (n : Nat) : String := String.ofList (Nat.toDigits 16 n)

/-- How a character stands between quotes. -/
def quotedChar (leavesMark : Char → Bool) (c : Char) : String :=
  match c with
  | '\x00' => "\\0"
  | '\t' => "\\t"
  | '\r' => "\\r"
  | '\n' => "\\n"
  | '"' => "\\\""
  | '\\' => "\\\\"
  | c => if leavesMark c then c.toString else "\\u\x7b" ++ hex c.toNat ++ "\x7d"

def quoted (leavesMark : Char → Bool) (s : String) : String :=
  "\"" ++ String.join (s.toList.map (quotedChar leavesMark)) ++ "\""

end IntentLoop.Text
