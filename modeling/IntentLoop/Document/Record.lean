import IntentLoop.Document.Written
import IntentLoop.Text.Invisible
import IntentLoop.Text.Quoted
/-!
# Reading a record

A record is a set of named fields of which every one has a reader. In a document it stands either as
an object, in which fields may come in any order, unknown ones are skipped and none may come twice,
or as an array of its fields in order. A record that is `lenient` may leave fields out in both forms;
one that is not has to be a full array, and an object with every field that is required.

Reading starts from a value of the record with all defaults, and every field that is met changes it.
-/

namespace IntentLoop.Document

/-- A number as messages speak of it. -/
def Number.describe (n : Number) : String :=
  match n with
  | natural _ | negative _ => "integer `" ++ n.written ++ "`"
  | float _ => "floating point `" ++ n.written ++ "`"

/-- A string as messages speak of it. -/
def describeString (s : List Char) : String :=
  "string " ++ Text.quoted (fun c => !Text.isInvisible c) (String.ofList s)

/-- The value that stands next, as messages speak of it. A value that is not well formed has no
description; of a list or an object only the bracket is looked at. -/
def describeNext : List Char → Except Fault String
  | 'n' :: s => do
    let _ ← word ['u', 'l', 'l'] s
    return "null"
  | 't' :: s => do
    let _ ← word ['r', 'u', 'e'] s
    return "boolean `true`"
  | 'f' :: s => do
    let _ ← word ['a', 'l', 's', 'e'] s
    return "boolean `false`"
  | '"' :: s => do
    let (body, _) ← stringBody s
    return describeString body
  | '[' :: _ => .ok "sequence"
  | '{' :: _ => .ok "map"
  | s => do
    let (n, _) ← number s
    return n.describe

def wrongType (met wanted : String) : Fault :=
  .unfit ("invalid type: " ++ met ++ ", expected " ++ wanted)

def wrongValue (met wanted : String) : Fault :=
  .unfit ("invalid value: " ++ met ++ ", expected " ++ wanted)

/-- The fault of a value that is of another kind than `wanted`. -/
def mismatch {α : Type} (wanted : String) (s : List Char) : Except Fault α := do
  throw (wrongType (← describeNext s) wanted)

/-! ### Single values -/

def text (wanted : String) : Reader String := fun s =>
  match skipBlanks s with
  | '"' :: s => do
    let (body, s) ← stringBody s
    return (String.ofList body, s)
  | s => mismatch wanted s

def flag : Reader Bool := fun s =>
  match skipBlanks s with
  | 't' :: s => do
    let (_, s) ← word ['r', 'u', 'e'] s
    return (true, s)
  | 'f' :: s => do
    let (_, s) ← word ['a', 'l', 's', 'e'] s
    return (false, s)
  | s => mismatch "a boolean" s

/-- A whole number of so many bits. -/
def word? (bits : Nat) : Reader Nat := fun s =>
  let wanted := "u" ++ toString bits
  match skipBlanks s with
  | c :: rest =>
    if c = '-' ∨ c.isDigit then do
      let (n, s) ← number (c :: rest)
      match n with
      | .natural v =>
        if v < 1 <<< bits then return (v, s) else throw (wrongValue n.describe wanted)
      | .negative _ => throw (wrongValue n.describe wanted)
      | .float _ => throw (wrongType n.describe wanted)
    else mismatch wanted (c :: rest)
  | [] => .error .malformed

/-- A value, or `null` for none. -/
def optional {α : Type} (read : Reader α) : Reader (Option α) := fun s =>
  match skipBlanks s with
  | 'n' :: s => do
    let (_, s) ← word ['u', 'l', 'l'] s
    return (none, s)
  | s => do
    let (v, s) ← read s
    return (some v, s)

/-! ### Records -/

structure Field (ρ : Type) where
  name : String
  /-- Reads the field and tells what it makes of the record. -/
  read : Reader (ρ → ρ)
  required : Bool := false

/-- A field whose value goes into the record by `put`. -/
def Field.of {ρ α : Type} (name : String) (read : Reader α) (put : α → ρ → ρ)
    (required : Bool := false) : Field ρ :=
  { name, required
    read := fun s => do
      let (v, s) ← read s
      return (put v, s) }

structure Schema (ρ : Type) where
  /-- What messages call the record. -/
  title : String
  fields : List (Field ρ)
  default : ρ
  /-- May fields be left out? -/
  lenient : Bool

namespace Schema

variable {ρ : Type}

/-- A member of an object after the opening quote of its key: the names seen and the record. -/
def member (schema : Schema ρ) (seen : List String) (r : ρ) (s : List Char) :
    Except Fault (List String × ρ × List Char) := do
  let (key, s) ← stringBody s
  let key := String.ofList key
  match schema.fields.find? (·.name == key) with
  | none =>
    let s ← skipValue (← colon s)
    return (seen, r, s)
  | some field =>
    if seen.contains key then throw (.unfit ("duplicate field `" ++ key ++ "`"))
    let (put, s) ← field.read (← colon s)
    return (key :: seen, put r, s)

/-- The members of an object up to its closing brace. Every round takes a character. -/
def members (schema : Schema ρ) :
    Nat → Bool → List String → ρ → List Char → Except Fault (List String × ρ × List Char)
  | 0, _, _, _, _ => .error .malformed
  | fuel + 1, first, seen, r, s =>
    match skipBlanks s with
    | '}' :: s => .ok (seen, r, s)
    | '"' :: s =>
      if first then do
        let (seen, r, s) ← schema.member seen r s
        schema.members fuel false seen r s
      else .error .malformed
    | ',' :: s =>
      if first then .error .malformed
      else
        match skipBlanks s with
        | '"' :: s => do
          let (seen, r, s) ← schema.member seen r s
          schema.members fuel false seen r s
        | _ => .error .malformed
    | _ => .error .malformed

def object (schema : Schema ρ) : Reader ρ := fun s => do
  let (seen, r, s) ← schema.members (s.length + 1) true [] schema.default s
  match schema.fields.find? fun f => f.required && !seen.contains f.name with
  | some f => throw (.unfit ("missing field `" ++ f.name ++ "`"))
  | none => return (r, s)

/-- Go on to the next element of an array, if there is one. -/
def nextElement (first : Bool) (s : List Char) : Except Fault (Option (List Char)) :=
  match skipBlanks s with
  | ']' :: _ => .ok none
  | ',' :: s =>
    if first then .error .malformed
    else
      match skipBlanks s with
      | ']' :: _ | [] => .error .malformed
      | s => .ok (some s)
  | [] => .error .malformed
  | s => if first then .ok (some s) else .error .malformed

/-- The elements of an array for the fields that are still to come. -/
def elements (schema : Schema ρ) : List (Field ρ) → Nat → ρ → Reader ρ
  | [], _, r, s => .ok (r, s)
  | field :: fields, index, r, s => do
    match ← nextElement (index = 0) s with
    | some s =>
      let (put, s) ← field.read s
      schema.elements fields (index + 1) (put r) s
    | none =>
      if schema.lenient then return (r, s)
      else
        throw (.unfit ("invalid length " ++ toString index ++ ", expected " ++ schema.title
          ++ " with " ++ toString schema.fields.length ++ " elements"))

def array (schema : Schema ρ) : Reader ρ := fun s => do
  let (r, s) ← schema.elements schema.fields 0 schema.default s
  match skipBlanks s with
  | ']' :: s => return (r, s)
  | _ => throw .malformed

/-- A whole document that holds the record. -/
def parse (schema : Schema ρ) (document : String) : Except Fault ρ := do
  let (r, s) ← match skipBlanks document.toList with
    | '{' :: s => schema.object s
    | '[' :: s => schema.array s
    | s => mismatch schema.title s
  if (skipBlanks s).isEmpty then return r else throw .malformed

end Schema

end IntentLoop.Document
