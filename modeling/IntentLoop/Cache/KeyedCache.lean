import IntentLoop.Cache.TimedCache
/-!
# The cache with keys

One cache per key, all with the same time to live and on the same clock. The cache of a key is made
when the key is first asked for; until then there is nothing to peek at and nothing to invalidate.

Keys are compared by `==`, which may take two keys for the same. Such keys share a cache, and its
refresh is called with the key that the cache was made for.
-/

namespace IntentLoop.Cache

structure KeyedCache (κ ε α : Type) where
  ttl : Duration
  now : Duration
  /-- The keys that were asked for, in that order, each with its cache. -/
  caches : List (κ × TimedCache ε α)
  deriving DecidableEq

namespace KeyedCache

inductive Act (κ ε α : Type) where
  /-- Something other than the passing of time happens to the cache of a key. -/
  | on (key : κ) (act : TimedCache.Act ε α)
  /-- A caller that has not begun yet looks up the cache of a key. -/
  | lookUp (key : κ)
  | invalidateAll
  | pass (time : Duration)
  deriving DecidableEq

variable {κ ε α : Type} [BEq κ]

def new (ttl : Duration) : KeyedCache κ ε α := { ttl, now := 0, caches := [] }

/-- The key under which a cache is kept, with the cache, if the key was ever asked for. -/
def find? (c : KeyedCache κ ε α) (key : κ) : Option (κ × TimedCache ε α) :=
  c.caches.find? (·.1 == key)

/-- The cache of a key, if the key was ever asked for. -/
def cache? (c : KeyedCache κ ε α) (key : κ) : Option (TimedCache ε α) := (c.find? key).map (·.2)

/-- The cache of a key, as good as new if the key was never asked for. -/
def cacheOf (c : KeyedCache κ ε α) (key : κ) : TimedCache ε α :=
  (c.cache? key).getD (.new c.ttl c.now)

/-- The key that the cache of a key was made for, if there is one. -/
def kept? (c : KeyedCache κ ε α) (key : κ) : Option κ := (c.find? key).map (·.1)

/-- The key that the cache of a key was made for, or would be now. -/
def keyOf (c : KeyedCache κ ε α) (key : κ) : κ := (c.kept? key).getD key

def peek (c : KeyedCache κ ε α) (key : κ) : Option α := (c.cache? key).bind (·.peek)

/-- Put a cache in the place of the one that its key has. -/
def put (key : κ) (cache : TimedCache ε α) (c : KeyedCache κ ε α) : KeyedCache κ ε α :=
  if (c.cache? key).isSome then
    { c with caches := c.caches.map fun (k, old) => if k == key then (k, cache) else (k, old) }
  else { c with caches := c.caches ++ [(key, cache)] }

/-- Does the act make a cache for a key that has none? -/
def makes : TimedCache.Act ε α → Bool
  | .get => true
  | _ => false

/-- Is the act one that time brings to all caches? -/
def isPassing : TimedCache.Act ε α → Bool
  | .pass _ => true
  | _ => false

def on (key : κ) (act : TimedCache.Act ε α) (c : KeyedCache κ ε α) :
    KeyedCache κ ε α × List (TimedCache.Event ε α) :=
  if isPassing act then (c, [])
  else if (c.cache? key).isSome || makes act then
    let (cache, events) := (c.cacheOf key).step act
    (c.put key cache, events)
  else (c, [])

/-- The same act on the caches of all keys. -/
def onAll (act : TimedCache.Act ε α) (c : KeyedCache κ ε α) :
    KeyedCache κ ε α × List (κ × TimedCache.Event ε α) :=
  ({ c with caches := c.caches.map fun (k, cache) => (k, (cache.step act).1) },
    c.caches.flatMap fun (k, cache) => (cache.step act).2.map (k, ·))

def step (c : KeyedCache κ ε α) :
    Act κ ε α → KeyedCache κ ε α × List (κ × TimedCache.Event ε α)
  | .on key act =>
    let (next, events) := c.on key act
    (next, events.map (c.keyOf key, ·))
  | .lookUp key => (c.put key (c.cacheOf key), [])
  | .invalidateAll => c.onAll .invalidate
  | .pass d =>
    let (c, events) := c.onAll (.pass d)
    ({ c with now := c.now + d }, events)

/-- A run that goes on with one more act, each event of it with its instant. -/
def extend (past : KeyedCache κ ε α × List (Duration × κ × TimedCache.Event ε α))
    (act : Act κ ε α) : KeyedCache κ ε α × List (Duration × κ × TimedCache.Event ε α) :=
  let (next, events) := past.1.step act
  (next, past.2 ++ events.map (past.1.now, ·))

/-- A run from given caches: the caches after a list of acts, and what happened to which key. -/
def runFrom (c : KeyedCache κ ε α) (acts : List (Act κ ε α)) :
    KeyedCache κ ε α × List (Duration × κ × TimedCache.Event ε α) := acts.foldl extend (c, [])

def run (ttl : Duration) (acts : List (Act κ ε α)) :
    KeyedCache κ ε α × List (Duration × κ × TimedCache.Event ε α) := (new ttl).runFrom acts

end KeyedCache

end IntentLoop.Cache
