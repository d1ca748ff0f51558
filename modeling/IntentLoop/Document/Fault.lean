/-!
# What can be wrong with a document

Either the text is not one well-formed JSON document, or a value in it does not fit what is wanted
there, which a message says. A document is read from left to right and the first fault met decides.
-/

namespace IntentLoop.Document

inductive Fault where
  | malformed
  | unfit (message : String)
  deriving DecidableEq

/-- A reader takes some characters and leaves the rest. -/
abbrev Reader (α : Type) := List Char → Except Fault (α × List Char)

end IntentLoop.Document
