import IntentLoop.Document.Record
import IntentLoop.Document.Written
import IntentLoop.Time.Internet
/-!
# Session tokens

A token is a secret and, for some tokens, the instant from which on it is of no use. It goes into the
header of a request, and it can be kept in a document and read back. Where a token is shown, its
secret is not.
-/

namespace IntentLoop.Auth

structure Token where
  secret : String
  expiresAt : Option Timestamp := none
  deriving DecidableEq

namespace Token

/-- A token is of no use at its instant of expiry and after it. -/
def isExpiredAt (t : Token) (now : Timestamp) : Bool :=
  t.expiresAt.any (·.le now)

theorem isExpiredAt_mono {t : Token} {now later : Timestamp} (h : now.le later)
    (expired : t.isExpiredAt now) : t.isExpiredAt later := by
  cases hx : t.expiresAt with
  | none => simp [isExpiredAt, hx] at expired
  | some limit =>
    simp only [isExpiredAt, hx, Option.any_some] at *
    exact Timestamp.le_trans expired h

/-- The value of an `Authorization` header. -/
def header (t : Token) : String := "Bearer " ++ t.secret

/-- The token for people to look at. -/
def shown (t : Token) : String :=
  "SessionToken \x7b token: \"<redacted>\", expires_at: "
    ++ (match t.expiresAt with
      | some i => "Some(" ++ i.toText ++ ")"
      | none => "None")
    ++ " \x7d"

/-! ### In documents -/

/-- An instant in a document. -/
def instant : Document.Reader Timestamp := fun s => do
  let (text, s) ← Document.text "an RFC 3339 formatted date and time string" s
  match Timestamp.ofText text with
  | .ok t => return (t, s)
  | .error fault => throw (.unfit fault.message)

def schema : Document.Schema Token where
  title := "struct SessionToken"
  default := { secret := "" }
  lenient := false
  fields := [
    .of "token" (Document.text "a string") (fun secret t => { t with secret }) true,
    .of "expires_at" (Document.optional instant) fun expiresAt t => { t with expiresAt }]

def parse (document : String) : Except Document.Fault Token := schema.parse document

/-- The document of the token. -/
def document (t : Token) : String :=
  "\x7b\"token\":" ++ Document.quoted t.secret ++ ",\"expires_at\":"
    ++ (match t.expiresAt with
      | some i => Document.quoted i.toText
      | none => "null")
    ++ "\x7d"

end Token

end IntentLoop.Auth
