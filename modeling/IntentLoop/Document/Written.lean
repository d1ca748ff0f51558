import IntentLoop.Decimal.Shortest
import IntentLoop.Document.Lexical
/-!
# Strings and numbers in documents

How a string is written in a document: in quotes, with a backslash before a quote, a backslash or the
letter of a control character, and the other controls by number. A double is written with the fewest
digits that read back, and never looks like a whole number.
-/

namespace IntentLoop.Document

private def hexDigit (n : Nat) : Char := (Nat.toDigits 16 n).headD '0'

def quotedChar : Char → List Char
  | '"' => ['\\', '"']
  | '\\' => ['\\', '\\']
  | '\x08' => ['\\', 'b']
  | '\x0c' => ['\\', 'f']
  | '\n' => ['\\', 'n']
  | '\r' => ['\\', 'r']
  | '\t' => ['\\', 't']
  | c =>
    if c.toNat < 0x20 then
      ['\\', 'u', '0', '0', hexDigit (c.toNat / 16), hexDigit (c.toNat % 16)]
    else [c]

def quoted (s : String) : String :=
  String.ofList ('"' :: s.toList.flatMap quotedChar ++ ['"'])

/-- Doubles: sixteen digits before the point at most, and four zeros after it. -/
def doubleLayout : Decimal.Layout := { largest := 16, smallest := -5 }

def Number.written : Number → String
  | natural n => toString n
  | negative n => toString n
  | float x => doubleLayout.renderFloat x

end IntentLoop.Document
