import IntentLoop.Duration
import IntentLoop.Time.Calendar
/-!
# Instants of the wall clock

A timestamp counts seconds from the beginning of 1970 in universal time, and nanoseconds within the
second. Nanoseconds from one thousand million on belong to a leap second, which has no number of its
own and is told as the second before it, gone on for longer.
-/

namespace IntentLoop

structure Timestamp where
  secs : Int
  nanos : Nat := 0
  deriving DecidableEq

namespace Timestamp

/-- Not later than. -/
def le (a b : Timestamp) : Bool := a.secs < b.secs || (a.secs == b.secs && a.nanos ≤ b.nanos)

/-- The timestamp of the instant that lies `d` after `t`. -/
def add (t : Timestamp) (d : Duration) : Timestamp :=
  { secs := t.secs + ((t.nanos + d) / Duration.nanosPerSec : Nat)
    nanos := (t.nanos + d) % Duration.nanosPerSec }

theorem le_refl (a : Timestamp) : a.le a := by simp [le]

theorem le_trans {a b c : Timestamp} (hab : a.le b) (hbc : b.le c) : a.le c := by
  simp only [le, Bool.or_eq_true, Bool.and_eq_true, decide_eq_true_eq, beq_iff_eq] at *
  omega

/-- Adding a length of time leads to no earlier instant, not even within a leap second. -/
theorem le_add (t : Timestamp) (d : Duration) : t.le (t.add d) := by
  simp only [le, Bool.or_eq_true, Bool.and_eq_true, decide_eq_true_eq, beq_iff_eq]
  simp only [add, Duration.nanosPerSec]
  omega

def secsPerDay : Int := 86400

/-- A date and a time of day, as written. The second may be a sixtieth. -/
structure Written where
  date : Calendar.Date
  hour : Nat
  minute : Nat
  second : Nat
  nanos : Nat
  deriving DecidableEq

def written (t : Timestamp) : Written :=
  let days := t.secs.fdiv secsPerDay
  let rest := (t.secs - days * secsPerDay).toNat
  let leap := Duration.nanosPerSec ≤ t.nanos
  { date := Calendar.Date.ofDays days
    hour := rest / 3600
    minute := rest / 60 % 60
    second := rest % 60 + if leap then 1 else 0
    nanos := if leap then t.nanos - Duration.nanosPerSec else t.nanos }

/-- The instant of a date and time written for a place that is `offset` seconds ahead of universal
time. -/
def ofWritten (w : Written) (offset : Int) : Timestamp :=
  let leap := w.second = 60
  { secs := w.date.toDays * secsPerDay + w.hour * 3600 + w.minute * 60
      + (if leap then 59 else w.second : Nat) - offset
    nanos := w.nanos + if leap then Duration.nanosPerSec else 0 }

end Timestamp

end IntentLoop
