import IntentLoop.Document.Record
import IntentLoop.Duration
import IntentLoop.Result
/-!
# Settings

What can be set about engines, caches and pollers. Each kind of settings can be read from a document
and has a default for every field, so that any part of a document is a document.
-/

namespace IntentLoop

open Document (Field Schema)

/-! ### Engines -/

structure EngineSettings where
  name : String := "engine"
  /-- Is a failed reduction handed to whoever tears the engine down? -/
  strict : Bool := true
  deriving DecidableEq

def EngineSettings.schema : Schema EngineSettings where
  title := "struct EngineConfig"
  default := {}
  lenient := true
  fields := [.of "name" (Document.text "a string") fun name s => { s with name },
    .of "strict" Document.flag fun strict s => { s with strict }]

/-! ### Caches -/

structure CacheSettings where
  /-- How long a value stays fresh, in seconds. -/
  ttlSecs : Nat := 240
  deriving DecidableEq

namespace CacheSettings

def schema : Schema CacheSettings where
  title := "struct CacheConfig"
  default := {}
  lenient := true
  fields := [.of "ttl_secs" (Document.word? 64) fun ttlSecs _ => { ttlSecs }]

def shortLived : CacheSettings := { ttlSecs := 240 }

def longLived : CacheSettings := { ttlSecs := 3600 }

def ttl (s : CacheSettings) : Duration := .ofSecs s.ttlSecs

end CacheSettings

/-! ### Pollers -/

structure PollSettings where
  /-- The wait between two fetches, in seconds. -/
  intervalSecs : Nat := 5
  /-- The most fetches of a session. -/
  maxRetries : Nat := 20
  deriving DecidableEq

namespace PollSettings

def schema : Schema PollSettings where
  title := "struct PollConfig"
  default := {}
  lenient := true
  fields := [.of "interval_secs" (Document.word? 64) fun intervalSecs s => { s with intervalSecs },
    .of "max_retries" (Document.word? 32) fun maxRetries s => { s with maxRetries }]

def interval (s : PollSettings) : Duration := .ofSecs s.intervalSecs

end PollSettings

end IntentLoop
