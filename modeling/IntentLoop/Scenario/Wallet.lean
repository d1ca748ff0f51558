import IntentLoop.Document.Value
import IntentLoop.Duration
import IntentLoop.Engine.Builder
/-!
# A wallet

The states, intents and effects that scripted engines run on. Two states of a wallet are the same
when they differ in nothing but their revision, which intents can count up and reveal. Intents can be
told to break off in any of the callbacks, and to bring an effect with them.
-/

namespace IntentLoop.Scenario.Wallet

structure State where
  phase : String := "idle"
  value : Option Int := none
  balance : Nat := 0
  locked : Bool := false
  label : String := ""
  rev : Int := 0
  deriving DecidableEq

/-- Sameness leaves the revision out. -/
def State.same (a b : State) : Bool := { a with rev := 0 } == { b with rev := 0 }

/-- Where an intent breaks off. -/
inductive Place where
  | validation
  | handling
  | reduction
  | filtering
  | elsewhere
  deriving DecidableEq

/-- What an effect does, `ι` being the intents it may submit. -/
inductive Effect (ι : Type) where
  /-- Wait and submit some intents. -/
  | send (after : Duration) (intents : List ι)
  /-- So many times: wait and submit the intent, as long as it is accepted. -/
  | again (after : Duration) (times : Nat) (intent : ι)
  /-- Wait for cancellation. -/
  | wait
  | panic (after : Duration)
  | finish
  /-- Leave the submissions to a task that nobody tracks. -/
  | detached (after : Duration) (intents : List ι)

/-- What an intent says of itself. -/
structure Body where
  /-- The whole intent as it was written down; intents that were written as the same value are
  equal. -/
  writing : Document.Value
  kind : String
  amount : Option Int
  note : Option String
  forced : Bool
  place : Place
  panic : Panic

inductive Intent where
  | mk (body : Body) (effect : Option (Effect Intent))

namespace Intent

def body : Intent → Body
  | mk body _ => body

def effect : Intent → Option (Effect Intent)
  | mk _ effect => effect

instance : BEq Intent where
  beq a b := a.body.writing == b.body.writing

/-- The intent's kind, then its amount, then its note. -/
def describe (i : Intent) : String :=
  i.body.kind
    ++ (match i.body.amount with
      | some n => "(" ++ toString n ++ ")"
      | none => "")
    ++ (match i.body.note with
      | some s => "<" ++ s ++ ">"
      | none => "")

def amount (i : Intent) : Int := i.body.amount.getD 0

def note (i : Intent) : String := i.body.note.getD ""

def isKind (i : Intent) (kind : String) : Bool := i.body.kind == kind

/-- Break off if the intent is told to do so at this place, and else answer. -/
def reaching {α : Type} (i : Intent) (place : Place) (answer : α) : Attempt α :=
  if i.isKind "panic" && i.body.place == place then .error i.body.panic else .ok answer

end Intent

/-- The largest balance. -/
def most : Nat := 255

def State.deposit (s : State) (n : Int) : State :=
  { s with balance := (min (most : Int) (max 0 (s.balance + n))).toNat }

/-- The last revision: they are counted in 64 bits with a sign. -/
def lastRevision : Int := 0x7FFFFFFFFFFFFFFF

/-- Counting up breaks off at the last revision. -/
def State.bump (s : State) : Attempt State :=
  if lastRevision ≤ s.rev then .error (.text "attempt to add with overflow")
  else .ok { s with rev := s.rev + 1 }

def State.admits (s : State) (i : Intent) : Bool :=
  match i.body.kind with
  | "deposit" | "withdraw" => !s.locked
  | "set_loading" => s.phase != "loading"
  | "set_loaded" | "fail" => s.phase == "loading"
  | "reset" => !s.same {}
  | _ => true

def State.after (s : State) (i : Intent) : State :=
  match i.body.kind with
  | "deposit" => s.deposit i.amount
  | "withdraw" => s.deposit (-i.amount)
  | "lock" => { s with locked := true }
  | "unlock" => { s with locked := false }
  | "set_loading" => { s with phase := "loading", value := none }
  | "set_loaded" => { s with phase := "loaded", value := some i.amount }
  | "fail" => { s with phase := "failed", label := i.note }
  | "label" => { s with label := i.note }
  | "reveal" => { s with value := some s.rev }
  | "reset" => {}
  | _ => s

def rules : Rules State Intent where
  same := State.same
  valid i s := i.reaching .validation (s.admits i)
  reduce i s := if i.isKind "bump" then s.bump else i.reaching .reduction (s.after i)
  describe := Intent.describe

/-! ### Filters -/

inductive Filter where
  | structural
  | allowAll
  /-- Intents of one kind in a row are repeats. -/
  | sameKind
  /-- Equal intents are repeats unless the later one is forced. -/
  | unforced
  /-- An intent is a repeat if its amount does not exceed the one before. -/
  | notIncreasing
  | dropTouch
  /-- Breaks off at intents that are told to do so here. -/
  | panicky
  | dropAll

def Filter.build : Filter → IntentFilter Intent
  | structural => .structural
  | allowAll => .allowAll
  | sameKind => .ofPred fun p n => p.body.kind == n.body.kind
  | unforced => .ofPred fun p n => p == n && !n.body.forced
  | notIncreasing => .ofPred fun p n => n.amount ≤ p.amount
  | dropTouch => .ofPred fun _ n => n.isKind "touch"
  | panicky => ⟨fun p n => n.reaching .filtering (p == n)⟩
  | dropAll => .ofPred fun _ _ => true

/-! ### Handlers and observers -/

def handler (name : String) : Handler State Intent (Effect Intent) where
  name
  perform _ i := i.reaching .handling i.effect

/-- An observer that breaks off at one label. -/
def observer (name : String) : Observer State where
  name
  notice s := if s.label == "observer panic" then .error (.text s.label) else .ok ()

end IntentLoop.Scenario.Wallet
