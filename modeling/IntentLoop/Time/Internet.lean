import IntentLoop.Text.Digits
import IntentLoop.Time.Timestamp
/-!
# Date-times of the internet

Timestamps are written `2024-01-01T00:00:00Z`, with no fraction of a second or one of three, six or
nine digits, whichever is the first that is exact. Reading is more liberal: the date and the time may
be parted by a blank, there may be white space between the parts, a fraction may have any number of
digits (the first nine count), years may be signed, and the place may be `Z`, `UTC` or an offset.

Reading goes from left to right and stops at the first fault. Whether the day exists in its month is
asked last.
-/

namespace IntentLoop.Timestamp

/-! ### Writing -/

private def yearText (year : Int) : String :=
  if 0 ≤ year ∧ year ≤ 9999 then Text.padded 4 year.toNat
  else (if year < 0 then "-" else "+") ++ Text.padded 4 year.natAbs

private def fractionText (nanos : Nat) : String :=
  if nanos = 0 then ""
  else if nanos % 1000000 = 0 then "." ++ Text.padded 3 (nanos / 1000000)
  else if nanos % 1000 = 0 then "." ++ Text.padded 6 (nanos / 1000)
  else "." ++ Text.padded 9 nanos

/-- The instant in universal time. -/
def toText (t : Timestamp) : String :=
  let w := t.written
  let two := Text.padded 2
  yearText w.date.year ++ "-" ++ two w.date.month ++ "-" ++ two w.date.day ++ "T"
    ++ two w.hour ++ ":" ++ two w.minute ++ ":" ++ two w.second ++ fractionText w.nanos ++ "Z"

/-! ### Reading -/

inductive Fault where
  | outOfRange
  | impossible
  | invalid
  | tooShort
  | trailing
  deriving DecidableEq

def Fault.message : Fault → String
  | outOfRange => "input is out of range"
  | impossible => "no possible date and time matching input"
  | invalid => "input contains invalid characters"
  | tooShort => "premature end of input"
  | trailing => "trailing input"

/-- A reader takes some characters and leaves the rest. -/
private abbrev Reader (α : Type) := List Char → Except Fault (α × List Char)

/-- Integers up to this one can be held while reading. -/
private def largest : Nat := 0x7FFFFFFFFFFFFFFF

/-- A number of at least one digit and, if there is a limit, no more digits than that. -/
private def number (limit : Option Nat) : Reader Nat := fun s =>
  let digits := (limit.elim s s.take).takeWhile Char.isDigit
  if s.isEmpty then .error .tooShort
  else if digits.isEmpty then .error .invalid
  else if largest < Text.value digits then .error .outOfRange
  else .ok (Text.value digits, s.drop digits.length)

private def ranged (lo hi : Nat) : Reader Nat := fun s => do
  let (n, s) ← number (some 2) (Text.trimLeft s)
  if lo ≤ n ∧ n ≤ hi then return (n, s) else throw .outOfRange

/-- A year. With a sign it may have any number of digits, without one it has at most four. -/
private def year : Reader Int := fun s => do
  let (y, s) ← match Text.trimLeft s with
    | '-' :: s => do
      let (n, s) ← number none s
      pure (-(n : Int), s)
    | '+' :: s => do
      let (n, s) ← number none s
      pure ((n : Int), s)
    | s => do
      let (n, s) ← number (some 4) s
      pure ((n : Int), s)
  if -0x80000000 ≤ y ∧ y < 0x80000000 then return (y, s) else throw .outOfRange

private def mark (c : Char) : Reader Unit := fun s =>
  match Text.trimLeft s with
  | [] => .error .tooShort
  | d :: s => if d = c then .ok ((), s) else .error .invalid

/-- The nanoseconds of a fraction, of which nine digits count. -/
private def fraction : Reader Nat
  | '.' :: s => do
    let (n, rest) ← number (some 9) s
    let counted := s.length - rest.length
    return (n * Nat.pow 10 (9 - counted), rest.dropWhile Char.isDigit)
  | s => .ok (0, s)

private def bytes (s : List Char) : Nat := s.foldl (fun n c => n + c.utf8Size) 0

private def digit (c : Char) : Nat := c.toNat - '0'.toNat

/-- Two digits, the first of them at most `top`; a larger first digit is out of range. -/
private def pair (top : Nat) : Reader Nat := fun s =>
  if bytes s < 2 then .error .tooShort
  else match s with
    | a :: b :: s =>
      if a.isDigit ∧ b.isDigit then
        if digit a ≤ top then .ok (digit a * 10 + digit b, s) else .error .outOfRange
      else .error .invalid
    | _ => .error .invalid

/-- How many seconds the place is ahead of universal time. -/
private def offset : Reader Int
  | 'Z' :: s | 'z' :: s => .ok (0, s)
  | c :: s => do
    if c = '+' ∨ c = '-' ∨ c = '−' then
      let (hours, s) ← pair 9 s
      let (minutes, s) ← pair 5 (s.dropWhile fun c => c = ':' || Text.isBlank c)
      let seconds : Int := hours * 3600 + minutes * 60
      return (if c = '+' then seconds else -seconds, s)
    else throw .invalid
  | [] => .error .tooShort

private def place : Reader Int := fun s =>
  match Text.trimLeft s with
  | a :: b :: c :: rest =>
    if [a, b, c].map Char.toLower = ['u', 't', 'c'] then .ok (0, rest) else offset (a :: b :: c :: rest)
  | s => offset s

/-- The character between the date and the time. -/
private def between : Reader Unit
  | [] => .error .tooShort
  | c :: s => if c = 't' ∨ c = 'T' ∨ c = ' ' then .ok ((), s) else .error .invalid

private def ofParts (w : Written) (ahead : Int) : Except Fault Timestamp :=
  let t := ofWritten w ahead
  if !w.date.isValid || secsPerDay ≤ ahead.natAbs then .error .outOfRange
  else if Calendar.yearInRange t.written.date.year then .ok t
  else .error .impossible

def ofText (text : String) : Except Fault Timestamp := do
  let (year, s) ← year text.toList
  let (_, s) ← mark '-' s
  let (month, s) ← ranged 1 12 s
  let (_, s) ← mark '-' s
  let (day, s) ← ranged 1 31 s
  let (_, s) ← between s
  let (hour, s) ← ranged 0 23 s
  let (_, s) ← mark ':' s
  let (minute, s) ← ranged 0 59 s
  let (_, s) ← mark ':' s
  let (second, s) ← ranged 0 60 s
  let (nanos, s) ← fraction s
  let (ahead, s) ← place s
  if (Text.trimLeft s).isEmpty then
    ofParts { date := { year, month, day }, hour, minute, second, nanos } ahead
  else throw .trailing

end IntentLoop.Timestamp
