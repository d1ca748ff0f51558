import IntentLoop.Document.Fault
import IntentLoop.Text.Digits
/-!
# Strings, numbers and skipped values

The smallest parts of a document. A string that is wanted must be proper text, so that an escaped
surrogate has to stand in a pair; one that is only skipped may hold any escapes. A number is first
taken apart (`Numeral`) and then given its value: a whole number where one can be held in 64 bits, and
otherwise a double.
-/

namespace IntentLoop.Document

def isBlank (c : Char) : Bool := c == ' ' || c == '\n' || c == '\t' || c == '\r'

def skipBlanks (s : List Char) : List Char := s.dropWhile isBlank

/-- The colon after a key. -/
def colon (s : List Char) : Except Fault (List Char) :=
  match skipBlanks s with
  | ':' :: s => .ok s
  | _ => .error .malformed

/-- Read the given characters and nothing else. -/
def word (w : List Char) : Reader Unit := fun s =>
  if s.take w.length = w then .ok ((), s.drop w.length) else .error .malformed

/-! ### Strings -/

def hexDigit? (c : Char) : Option Nat :=
  if c.isDigit then some (c.toNat - '0'.toNat)
  else if 'a' ≤ c ∧ c ≤ 'f' then some (c.toNat - 'a'.toNat + 10)
  else if 'A' ≤ c ∧ c ≤ 'F' then some (c.toNat - 'A'.toNat + 10)
  else none

def hexValue? (digits : List Char) : Option Nat :=
  digits.foldlM (fun n c => (hexDigit? c).map (n * 16 + ·)) 0

/-- What a backslash and this letter stand for. -/
def escaped? : Char → Option Char
  | '"' => some '"'
  | '\\' => some '\\'
  | '/' => some '/'
  | 'b' => some '\x08'
  | 'f' => some '\x0c'
  | 'n' => some '\n'
  | 'r' => some '\r'
  | 't' => some '\t'
  | _ => none

def isHighSurrogate (n : Nat) : Bool := 0xD800 ≤ n && n ≤ 0xDBFF

def isLowSurrogate (n : Nat) : Bool := 0xDC00 ≤ n && n ≤ 0xDFFF

def ofSurrogates (high low : Nat) : Char :=
  Char.ofNat (0x10000 + (high - 0xD800) * 0x400 + (low - 0xDC00))

/-- The rest of a string after its opening quote. -/
def stringBody : Reader (List Char)
  | '"' :: s => .ok ([], s)
  | '\\' :: 'u' :: a :: b :: c :: d :: s =>
    match hexValue? [a, b, c, d] with
    | none => .error .malformed
    | some n =>
      if isLowSurrogate n then .error .malformed
      else if isHighSurrogate n then
        match s with
        | '\\' :: 'u' :: e :: f :: g :: h :: s =>
          match hexValue? [e, f, g, h] with
          | none => .error .malformed
          | some m =>
            if isLowSurrogate m then do
              let (rest, s) ← stringBody s
              return (ofSurrogates n m :: rest, s)
            else .error .malformed
        | _ => .error .malformed
      else do
        let (rest, s) ← stringBody s
        return (Char.ofNat n :: rest, s)
  | '\\' :: c :: s =>
    match escaped? c with
    | none => .error .malformed
    | some c => do
      let (rest, s) ← stringBody s
      return (c :: rest, s)
  | c :: s =>
    if c.toNat < 0x20 then .error .malformed
    else do
      let (rest, s) ← stringBody s
      return (c :: rest, s)
  | [] => .error .malformed

/-- Skip the rest of a string after its opening quote. -/
def skipString : List Char → Except Fault (List Char)
  | '"' :: s => .ok s
  | '\\' :: 'u' :: a :: b :: c :: d :: s =>
    if (hexValue? [a, b, c, d]).isSome then skipString s else .error .malformed
  | '\\' :: c :: s => if (escaped? c).isSome then skipString s else .error .malformed
  | c :: s => if c.toNat < 0x20 then .error .malformed else skipString s
  | [] => .error .malformed

/-! ### Numbers -/

/-- The digits of an exponent and its sign. -/
structure Exponent where
  negative : Bool
  digits : List Char

/-- The parts of a number as written. -/
structure Numeral where
  negative : Bool
  whole : List Char
  fraction : Option (List Char)
  exponent : Option Exponent

/-- At least one digit. -/
def digits : Reader (List Char) := fun s =>
  match s.takeWhile Char.isDigit with
  | [] => .error .malformed
  | ds => .ok (ds, s.drop ds.length)

/-- The digits before the point; a zero is not followed by further ones. -/
def wholeDigits : Reader (List Char) := fun s => do
  let (ds, s) ← digits s
  if ds.head? = some '0' ∧ 1 < ds.length then throw .malformed
  return (ds, s)

def fractionDigits : Reader (Option (List Char))
  | '.' :: s => do
    let (ds, s) ← digits s
    return (some ds, s)
  | s => .ok (none, s)

def exponentDigits : Reader (Option Exponent)
  | c :: s =>
    if c = 'e' ∨ c = 'E' then do
      let (negative, s) := match s with
        | '+' :: s => (false, s)
        | '-' :: s => (true, s)
        | s => (false, s)
      let (digits, s) ← digits s
      return (some { negative, digits }, s)
    else .ok (none, c :: s)
  | [] => .ok (none, [])

def numeral : Reader Numeral := fun s => do
  let (negative, s) := match s with
    | '-' :: s => (true, s)
    | s => (false, s)
  let (whole, s) ← wholeDigits s
  let (fraction, s) ← fractionDigits s
  let (exponent, s) ← exponentDigits s
  return ({ negative, whole, fraction, exponent }, s)

inductive Number where
  | natural (n : Nat)
  | negative (n : Int)
  | float (x : Float)

/-- The significand is held in 64 bits; digits that do not fit are not looked at. -/
structure Significand where
  value : Nat := 0
  /-- Some digit did not fit. -/
  full : Bool := false

def Significand.push (s : Significand) (c : Char) : Significand :=
  let next := s.value * 10 + (c.toNat - '0'.toNat)
  if s.full || UInt64.size ≤ next then { s with full := true } else { s with value := next }

/-- How many of the digits fit. -/
def Significand.pushAll (s : Significand) (ds : List Char) : Significand × Nat :=
  ds.foldl (fun (s, fitted) c =>
    let next := s.push c
    (next, if next.full then fitted else fitted + 1)) (s, 0)

/-- `f * 10 ^ e`, rounded at each step. A product that is too large is not a number. -/
def scaled : Nat → Float → Int → Option Float
  | 0, f, _ => some f
  | fuel + 1, f, e =>
    if e.natAbs ≤ 308 then
      let power := Float.ofScientific 1 false e.natAbs
      if 0 ≤ e then
        let product := f * power
        if product.isInf then none else some product
      else some (f / power)
    else if f == 0 then some f
    else if 0 ≤ e then none
    else scaled fuel (f / Float.ofScientific 1 false 308) (e + 308)

/-- The most that an exponent may be while it is read. -/
def largestExponent : Nat := 0x7FFFFFFF

namespace Numeral

/-- Does it have a fraction or an exponent? -/
def isWhole (n : Numeral) : Bool := n.fraction.isNone && n.exponent.isNone

def signed (n : Numeral) (x : Float) : Float := if n.negative then -x else x

/-- The double that the numeral stands for, if it is not too large. -/
def float? (n : Numeral) : Option Float :=
  let (s, fitted) := Significand.pushAll {} n.whole
  let dropped : Int := (n.whole.length - fitted : Nat)
  let (s, fitted) := Significand.pushAll { s with full := false } (n.fraction.getD [])
  let start := dropped - (fitted : Int)
  let magnitude :=
    match n.exponent with
    | none => scaled 4 (UInt64.ofNat s.value).toFloat start
    | some e =>
      let size := Text.value e.digits
      if largestExponent < size then
        if s.value ≠ 0 ∧ !e.negative then none else some 0
      else scaled 4 (UInt64.ofNat s.value).toFloat (if e.negative then start - size else start + size)
  magnitude.map n.signed

def number? (n : Numeral) : Option Number :=
  let whole := Text.value n.whole
  if n.isWhole && whole < UInt64.size then
    if !n.negative then some (.natural whole)
    else if 0 < whole ∧ whole ≤ 1 <<< 63 then some (.negative (-(whole : Int)))
    else some (.float (-(UInt64.ofNat whole).toFloat))
  else n.float?.map .float

end Numeral

def number : Reader Number := fun s => do
  let (n, s) ← numeral s
  match n.number? with
  | some x => return (x, s)
  | none => throw .malformed

/-! ### Skipped values -/

/-- What has to follow a skipped value inside the containers around it. -/
inductive Bracket where
  | list
  | object

def Bracket.close : Bracket → Char
  | list => ']'
  | object => '}'

/-- A key, its colon and nothing more. -/
def skipKey (s : List Char) : Except Fault (List Char) :=
  match skipBlanks s with
  | '"' :: s => do colon (← skipString s)
  | _ => .error .malformed

/-- Where skipping stands: before a value, or after one. -/
inductive Place where
  | before
  | after

/-- Skip a value and all that the open brackets around it still need. -/
def skip : Nat → Place → List Bracket → List Char → Except Fault (List Char)
  | 0, _, _, _ => .error .malformed
  | _ + 1, .after, [], s => .ok s
  | fuel + 1, .after, b :: outer, s =>
    match skipBlanks s with
    | c :: s =>
      if c = b.close then skip fuel .after outer s
      else if c = ',' then
        match b with
        | .list => skip fuel .before (b :: outer) s
        | .object => do skip fuel .before (b :: outer) (← skipKey s)
      else .error .malformed
    | [] => .error .malformed
  | fuel + 1, .before, outer, s =>
    match skipBlanks s with
    | '[' :: s =>
      match skipBlanks s with
      | ']' :: s => skip fuel .after outer s
      | s => skip fuel .before (.list :: outer) s
    | '{' :: s =>
      match skipBlanks s with
      | '}' :: s => skip fuel .after outer s
      | s => do skip fuel .before (.object :: outer) (← skipKey s)
    | '"' :: s => do skip fuel .after outer (← skipString s)
    | 'n' :: s => do skip fuel .after outer (← word ['u', 'l', 'l'] s).2
    | 't' :: s => do skip fuel .after outer (← word ['r', 'u', 'e'] s).2
    | 'f' :: s => do skip fuel .after outer (← word ['a', 'l', 's', 'e'] s).2
    | s => do skip fuel .after outer (← numeral s).2

/-- Skip one value. Every round of `skip` but the last takes a character. -/
def skipValue (s : List Char) : Except Fault (List Char) := skip (s.length + 2) .before [] s

end IntentLoop.Document
