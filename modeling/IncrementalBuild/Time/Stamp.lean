/-!
# Time stamps

A stamp is a moment in time: a number of whole seconds since the beginning of 1970, which
fits in a signed word of 64 bits, and a number of nanoseconds short of a second.  Stamps
are ordered by their seconds first and their nanoseconds second, which is the order of the
moments.  `Stamp.new` carries nanoseconds that make up a second or more into the seconds;
where the seconds would leave their range they stay at its upper end.
-/

namespace IncrementalBuild

/-- The smallest number of seconds. -/
def minSeconds : Int := -9223372036854775808

/-- The largest number of seconds. -/
def maxSeconds : Int := 9223372036854775807

/-- The number of nanoseconds in a second. -/
def nanosPerSecond : Nat := 1000000000

/-- A moment in time. -/
structure Stamp where
  secs : Int
  nanos : Nat
  minSeconds_le : minSeconds ≤ secs
  le_maxSeconds : secs ≤ maxSeconds
  nanos_lt : nanos < nanosPerSecond
deriving DecidableEq

namespace Stamp

/-- The stamp of the given seconds and nanoseconds, of which there may be more than a
second has. -/
def new (secs : Int64) (nanos : UInt32) : Stamp where
  secs := min (secs.toInt + (nanos.toNat / nanosPerSecond : Nat)) maxSeconds
  nanos := nanos.toNat % nanosPerSecond
  minSeconds_le := by
    have := Int64.le_toInt secs
    apply Int.le_min.2
    simp only [minSeconds, maxSeconds, nanosPerSecond]
    omega
  le_maxSeconds := Int.min_le_right _ _
  nanos_lt := Nat.mod_lt _ (by decide)

/-- The beginning of 1970. -/
def epoch : Stamp where
  secs := 0
  nanos := 0
  minSeconds_le := by decide
  le_maxSeconds := by decide
  nanos_lt := by decide

instance : Inhabited Stamp := ⟨epoch⟩

/-- The stamp of the given seconds and nanoseconds, if they are in range. -/
def ofParts? (secs : Int) (nanos : Nat) : Option Stamp :=
  if h : minSeconds ≤ secs ∧ secs ≤ maxSeconds ∧ nanos < nanosPerSecond then
    some ⟨secs, nanos, h.1, h.2.1, h.2.2⟩
  else
    none

/-- The number of nanoseconds since the beginning of 1970. -/
def instant (t : Stamp) : Int :=
  t.secs * nanosPerSecond + t.nanos

/-- Being earlier: fewer seconds, or as many seconds and fewer nanoseconds. -/
def Before (s t : Stamp) : Prop :=
  s.secs < t.secs ∨ s.secs = t.secs ∧ s.nanos < t.nanos

instance : LT Stamp := ⟨Before⟩

instance (s t : Stamp) : Decidable (s < t) :=
  inferInstanceAs (Decidable (s.secs < t.secs ∨ s.secs = t.secs ∧ s.nanos < t.nanos))

instance : Ord Stamp :=
  ⟨fun s t => (compare s.secs t.secs).then (compare s.nanos t.nanos)⟩

theorem lt_iff (s t : Stamp) :
  s < t ↔ s.secs < t.secs ∨ s.secs = t.secs ∧ s.nanos < t.nanos
  := Iff.rfl

/-- The order of stamps is the order of the moments. -/
theorem lt_iff_instant_lt (s t : Stamp) :
  s < t ↔ s.instant < t.instant
  := by
  have hs := s.nanos_lt
  have ht := t.nanos_lt
  rw [lt_iff]
  simp only [instant, nanosPerSecond] at *
  omega

end Stamp

end IncrementalBuild
