/-!
# Lengths of time

A duration is a number of nanoseconds. Instants of a run are durations too: they count from the
moment the run begins, so the clock of a run starts at zero and only ever grows.
-/

namespace IntentLoop

abbrev Duration := Nat

namespace Duration

def nanosPerSec : Nat := 1000000000

def nanosPerMilli : Nat := 1000000

def ofSecs (n : Nat) : Duration := n * nanosPerSec

def ofMillis (n : Nat) : Duration := n * nanosPerMilli

def ofParts (secs nanos : Nat) : Duration := ofSecs secs + nanos

/-- Whole seconds. -/
def secs (d : Duration) : Nat := d / nanosPerSec

/-- What is left after the whole seconds. -/
def subsecNanos (d : Duration) : Nat := d % nanosPerSec

/-- Whole milliseconds. -/
def millis (d : Duration) : Nat := d / nanosPerMilli

def roundUpToMillis (d : Duration) : Duration := ofMillis ((d + (nanosPerMilli - 1)) / nanosPerMilli)

theorem le_roundUpToMillis (d : Duration) : d ≤ roundUpToMillis d := by
  have hnat : ∀ n : Nat, n ≤ (n + (1000000 - 1)) / 1000000 * 1000000 := by
    intro n
    omega
  exact hnat d

end Duration

/-- A timer tells when a wait is over that begins at some instant. How exact it is, is its own matter;
no wait is over before it begins. -/
structure Timer where
  due : (now wait : Duration) → Duration
  le_due : ∀ now wait, now ≤ due now wait

namespace Timer

/-- Does the timer keep waits of this length to the letter? -/
def Keeps (timer : Timer) (wait : Duration) : Prop := ∀ now, timer.due now wait = now + wait

/-- The timer that keeps every wait to the letter. -/
def exact : Timer where
  due now wait := now + wait
  le_due now wait := Nat.le_add_right now wait

end Timer

end IntentLoop
