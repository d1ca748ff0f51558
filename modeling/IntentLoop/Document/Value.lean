import IntentLoop.Document.Written
/-!
# Values of any kind

A value as a document holds it. The members of an object ascend by name and no name comes twice, so
that objects with the same members are the same list. In a document they may come in any order, and of
several with one name the last one counts.

Two values are the same when they have the same parts (`Value.same`). Whole numbers are the same when
they are equal, and doubles when they compare as equal, so that both zeros are the same double; a
whole number and a double never are.
-/

namespace IntentLoop.Document

/-- Of one kind, and equal. -/
def Number.same : Number → Number → Bool
  | natural m, natural n => m == n
  | negative m, negative n => m == n
  | float x, float y => x == y
  | _, _ => false

def Number.ofInt : Int → Number
  | .ofNat n => natural n
  | n => negative n

inductive Value where
  | null
  | flag (b : Bool)
  | number (n : Number)
  | text (s : String)
  | list (items : List Value)
  | object (members : List (String × Value))

namespace Value

/-- A member comes where its name belongs, in place of one that has the name already. -/
def insertMember (name : String) (v : Value) : List (String × Value) → List (String × Value)
  | [] => [(name, v)]
  | (other, w) :: rest =>
    if name < other then (name, v) :: (other, w) :: rest
    else if name = other then (name, v) :: rest
    else (other, w) :: insertMember name v rest

/-- The object that is made of members in any order. -/
def ofMembers (members : List (String × Value)) : Value :=
  .object (members.foldl (fun sorted (name, v) => insertMember name v sorted) [])

def ofInt (n : Int) : Value := .number (.ofInt n)

/-! ### Sameness -/

mutual

def same : Value → Value → Bool
  | null, null => true
  | flag a, flag b => a == b
  | number m, number n => m.same n
  | text s, text t => s == t
  | list as, list bs => sameItems as bs
  | object as, object bs => sameMembers as bs
  | _, _ => false

def sameItems : List Value → List Value → Bool
  | [], [] => true
  | a :: as, b :: bs => same a b && sameItems as bs
  | _, _ => false

def sameMembers : List (String × Value) → List (String × Value) → Bool
  | [], [] => true
  | (m, a) :: as, (n, b) :: bs => m == n && same a b && sameMembers as bs
  | _, _ => false

end

instance : BEq Value := ⟨same⟩

/-! ### Parts -/

def member? (name : String) : Value → Option Value
  | object members => members.lookup name
  | _ => none

/-- The items of a list; no other value has any. -/
def items : Value → List Value
  | list vs => vs
  | _ => []

def text? : Value → Option String
  | text s => some s
  | _ => none

def flag? : Value → Option Bool
  | flag b => some b
  | _ => none

/-- A whole number that is not negative. -/
def nat? : Value → Option Nat
  | number (.natural n) => some n
  | _ => none

/-- A whole number that has a place in 64 bits with a sign. -/
def int? : Value → Option Int
  | number (.natural n) => if n < 1 <<< 63 then some n else none
  | number (.negative n) => some n
  | _ => none

/-! ### Reading -/

mutual

/-- The value that stands next. -/
def read : Nat → Reader Value
  | 0, _ => .error .malformed
  | fuel + 1, s =>
    match skipBlanks s with
    | 'n' :: s => do
      let (_, s) ← word ['u', 'l', 'l'] s
      return (null, s)
    | 't' :: s => do
      let (_, s) ← word ['r', 'u', 'e'] s
      return (flag true, s)
    | 'f' :: s => do
      let (_, s) ← word ['a', 'l', 's', 'e'] s
      return (flag false, s)
    | '"' :: s => do
      let (body, s) ← stringBody s
      return (text (String.ofList body), s)
    | '[' :: s =>
      match skipBlanks s with
      | ']' :: s => .ok (list [], s)
      | s => do
        let (items, s) ← readItems fuel s
        return (list items, s)
    | '{' :: s =>
      match skipBlanks s with
      | '}' :: s => .ok (object [], s)
      | s => do
        let (members, s) ← readMembers fuel s
        return (ofMembers members, s)
    | s => do
      let (n, s) ← Document.number s
      return (number n, s)

/-- The items of a list that has some, and its closing bracket. -/
def readItems : Nat → Reader (List Value)
  | 0, _ => .error .malformed
  | fuel + 1, s => do
    let (v, s) ← read fuel s
    match skipBlanks s with
    | ']' :: s => return ([v], s)
    | ',' :: s => do
      let (vs, s) ← readItems fuel s
      return (v :: vs, s)
    | _ => throw .malformed

/-- The members of an object that has some, and its closing brace. -/
def readMembers : Nat → Reader (List (String × Value))
  | 0, _ => .error .malformed
  | fuel + 1, s =>
    match skipBlanks s with
    | '"' :: s => do
      let (name, s) ← stringBody s
      let (v, s) ← read fuel (← colon s)
      let first := (String.ofList name, v)
      match skipBlanks s with
      | '}' :: s => return ([first], s)
      | ',' :: s => do
        let (rest, s) ← readMembers fuel s
        return (first :: rest, s)
      | _ => throw .malformed
    | _ => .error .malformed

end

/-- The value that a whole document holds. At every depth at least one of two rounds takes a
character. -/
def parse (document : String) : Except Fault Value := do
  let s := document.toList
  let (v, s) ← read (2 * s.length + 2) s
  if (skipBlanks s).isEmpty then return v else throw .malformed

/-! ### Writing -/

mutual

def written : Value → String
  | null => "null"
  | flag b => if b then "true" else "false"
  | number n => n.written
  | text s => quoted s
  | list items => "[" ++ String.intercalate "," (writtenItems items) ++ "]"
  | object members => "\x7b" ++ String.intercalate "," (writtenMembers members) ++ "\x7d"

def writtenItems : List Value → List String
  | [] => []
  | v :: vs => v.written :: writtenItems vs

def writtenMembers : List (String × Value) → List String
  | [] => []
  | (name, v) :: rest => (quoted name ++ ":" ++ v.written) :: writtenMembers rest

end

end Value

end IntentLoop.Document
