import IntentLoop.Text.Digits
/-!
# The shortest decimal of a floating-point number

A double stands for all reals that round to it. Among the decimals in that interval, the one with the
fewest digits is its shortest; of several with as few digits, the nearest, and of two equally near
ones the even. It is found by exact arithmetic: for one digit, two digits and so on, the two
neighbours of the number on that decimal grid are tried.
-/

namespace IntentLoop.Decimal

/-- The number `digits * 10 ^ exponent`. -/
structure Scaled where
  digits : Nat
  exponent : Int
  deriving DecidableEq

/-- The positive rational `num / den`. -/
structure Ratio where
  num : Nat
  den : Nat
  deriving DecidableEq

/-- A positive real given exactly, and the ends of the interval of reals that round to it. -/
structure Interval where
  middle : Ratio
  low : Ratio
  high : Ratio
  /-- Do the ends round to it too? -/
  closed : Bool

namespace Ratio

def lt (a b : Ratio) : Bool := a.num * b.den < b.num * a.den

/-- `n * 2 ^ e`. -/
def dyadic (n : Nat) (e : Int) : Ratio := ⟨n <<< e.toNat, 1 <<< (-e).toNat⟩

/-- `n * 10 ^ e`. -/
def decimal (n : Nat) (e : Int) : Ratio := ⟨n * Nat.pow 10 e.toNat, Nat.pow 10 (-e).toNat⟩

/-- The largest `n` for which `n * 10 ^ e` does not exceed the ratio. -/
def floorOnGrid (r : Ratio) (e : Int) : Nat :=
  (r.num * Nat.pow 10 (-e).toNat) / (r.den * Nat.pow 10 e.toNat)

end Ratio

namespace Interval

/-- The interval of a positive double with these bits. -/
def ofBits (bits : Nat) : Interval :=
  let implicit := 1 <<< 52
  let stored := bits / implicit % (1 <<< 11)
  let fraction := bits % implicit
  let m := if stored = 0 then fraction else fraction + implicit
  let e : Int := (max 1 stored : Nat) - 1075
  let narrow := fraction = 0 && 1 < stored
  { middle := .dyadic (4 * m) (e - 2)
    low := .dyadic (4 * m - if narrow then 1 else 2) (e - 2)
    high := .dyadic (4 * m + 2) (e - 2)
    closed := m % 2 = 0 }

def contains (i : Interval) (r : Ratio) : Bool :=
  if i.closed then !r.lt i.low && !i.high.lt r else i.low.lt r && r.lt i.high

/-- The best decimal of the interval on the grid of multiples of `10 ^ e`. -/
def onGrid (i : Interval) (e : Int) : Option Scaled :=
  let n := i.middle.floorOnGrid e
  match i.contains (.decimal n e), i.contains (.decimal (n + 1) e) with
  | false, false => none
  | true, false => some ⟨n, e⟩
  | false, true => some ⟨n + 1, e⟩
  | true, true =>
    let half := Ratio.decimal (10 * n + 5) (e - 1)
    if i.middle.lt half || (!half.lt i.middle && n % 2 == 0) then some ⟨n, e⟩ else some ⟨n + 1, e⟩

/-- The position of the first digit of the middle: the least `k ≤ bound` with middle below
`10 ^ k`, counting up from `k`. -/
def scale (i : Interval) : Nat → Int → Int
  | 0, k => k
  | fuel + 1, k => if i.middle.lt (.decimal 1 k) then k else scale i fuel (k + 1)

end Interval

/-- Drop the zeros at the end of the digits. -/
def Scaled.strip : Nat → Scaled → Scaled
  | 0, d => d
  | fuel + 1, d =>
    if d.digits % 10 = 0 then strip fuel ⟨d.digits / 10, d.exponent + 1⟩ else d

/-- The shortest decimal of a positive finite double with these bits. -/
def shortest (bits : Nat) : Scaled :=
  let i := Interval.ofBits bits
  let k := i.scale 650 (-325)
  match (List.range 17).findSome? fun n => i.onGrid (k - (n + 1 : Nat)) with
  | some d => d.strip 20
  | none => ⟨i.middle.floorOnGrid (k - 17), k - 17⟩

/-- How a decimal is laid out: where positional notation ends on either side. Beyond that, an exponent
follows, always with its sign. -/
structure Layout where
  /-- The most digits before the point. -/
  largest : Int
  /-- The most zeros between the point and the first digit, made negative. -/
  smallest : Int

def Layout.render (l : Layout) (d : Scaled) : String :=
  let digits := Nat.toDigits 10 d.digits
  let point := (digits.length : Int) + d.exponent
  let zeros (n : Int) := List.replicate n.toNat '0'
  String.ofList <|
    if 0 ≤ d.exponent ∧ point ≤ l.largest then digits ++ zeros d.exponent ++ ['.', '0']
    else if 0 < point ∧ point ≤ l.largest then
      digits.take point.toNat ++ '.' :: digits.drop point.toNat
    else if l.smallest < point ∧ point ≤ 0 then '0' :: '.' :: zeros (-point) ++ digits
    else
      let sign := if 0 < point then '+' else '-'
      let exponent := 'e' :: sign :: Nat.toDigits 10 (point - 1).natAbs
      match digits with
      | [d] => d :: exponent
      | d :: rest => d :: '.' :: rest ++ exponent
      | [] => exponent

/-- The text of a finite double. -/
def Layout.renderFloat (l : Layout) (x : Float) : String :=
  let bits := x.toBits.toNat
  let signBit := 1 <<< 63
  let sign := if signBit ≤ bits then "-" else ""
  let magnitude := bits % signBit
  sign ++ if magnitude = 0 then "0.0" else l.render (shortest magnitude)

end IntentLoop.Decimal
