import IncrementalBuild.Proofs.Time.FileTime

/-!
# Carrying nanoseconds into the seconds

Seconds and nanoseconds, of which there may be more than a second has, stand for a number of
nanoseconds since the beginning of 1970, and the stamp that is made of them is at that instant as
long as the seconds with what is carried stay in their range.  So stamps are in the order of what
they are made of.

At the upper end of the range the seconds stay where they are, but the nanoseconds go on from zero.
So there a later instant can have an earlier stamp, and it has just in case the seconds of both are
at the end and the nanoseconds that remain are fewer.
-/

namespace IncrementalBuild.Stamp

/-- The number of nanoseconds since the beginning of 1970 that seconds and nanoseconds stand for. -/
def instantOf (secs : Int64) (nanos : UInt32) : Int :=
  secs.toInt * nanosPerSecond + nanos.toNat

/-- The number of whole seconds since the beginning of 1970 that seconds and nanoseconds make up. -/
def wholeSeconds (secs : Int64) (nanos : UInt32) : Int :=
  secs.toInt + (nanos.toNat / nanosPerSecond : Nat)

section

variable (secs : Int64) (nanos : UInt32)

theorem secs_new :
  (new secs nanos).secs = min (wholeSeconds secs nanos) maxSeconds
  := rfl

theorem nanos_new :
  (new secs nanos).nanos = nanos.toNat % nanosPerSecond
  := rfl

theorem instantOf_eq :
  instantOf secs nanos
    = wholeSeconds secs nanos * nanosPerSecond + (nanos.toNat % nanosPerSecond : Nat)
  := by
  simp only [instantOf, wholeSeconds, nanosPerSecond]
  omega

/-- The seconds that do not fit into the range are lost, and nothing else. -/
theorem instant_new :
  (new secs nanos).instant
    = instantOf secs nanos - max 0 (wholeSeconds secs nanos - maxSeconds) * nanosPerSecond
  := by
  have hmin : min (wholeSeconds secs nanos) maxSeconds
      = wholeSeconds secs nanos - max 0 (wholeSeconds secs nanos - maxSeconds) := by omega
  rw [instant, secs_new, nanos_new, instantOf_eq, hmin, Int.sub_mul]
  omega

end

section

variable {secs secs' : Int64} {nanos nanos' : UInt32}

theorem instant_new_of_le (h : wholeSeconds secs nanos ≤ maxSeconds) :
  (new secs nanos).instant = instantOf secs nanos
  := by
  have hmax : max 0 (wholeSeconds secs nanos - maxSeconds) = 0 := by omega
  rw [instant_new, hmax, Int.zero_mul, Int.sub_zero]

/-- A later instant does not have fewer whole seconds. -/
theorem wholeSeconds_le (h : instantOf secs nanos ≤ instantOf secs' nanos') :
  wholeSeconds secs nanos ≤ wholeSeconds secs' nanos'
  := by
  have hlt := Nat.mod_lt nanos'.toNat (show 0 < nanosPerSecond by decide)
  rw [instantOf_eq, instantOf_eq] at h
  simp only [nanosPerSecond] at h hlt
  omega

/-- The stamp of a later instant is earlier just in case the seconds stay at the end of their range
and fewer nanoseconds remain. -/
theorem compare_new_eq_gt_iff (h : instantOf secs nanos ≤ instantOf secs' nanos') :
  compare (new secs nanos) (new secs' nanos') = .gt ↔
    maxSeconds ≤ wholeSeconds secs nanos
      ∧ nanos'.toNat % nanosPerSecond < nanos.toNat % nanosPerSecond
  := by
  have hwhole := wholeSeconds_le h
  rw [compare_eq_compare_instant, Int.compare_eq_gt, ← lt_iff_instant_lt, lt_iff, secs_new,
    secs_new, nanos_new, nanos_new]
  by_cases hend : maxSeconds ≤ wholeSeconds secs nanos
  · omega
  · have hsame : min (wholeSeconds secs nanos) maxSeconds = wholeSeconds secs nanos := by omega
    rw [instantOf_eq, instantOf_eq] at h
    rw [hsame]
    simp only [nanosPerSecond] at *
    omega

end

/-- A stamp has fewer nanoseconds than a second has.  As long as the seconds stay in their range,
two stamps compare as the instants do that they are made of.  Beyond the range a later instant never
has fewer seconds, but it has an earlier stamp if fewer nanoseconds remain of it. -/
theorem compare_new (secs secs' : Int64) (nanos nanos' : UInt32) :
  (new secs nanos).nanos < nanosPerSecond ∧
    (wholeSeconds secs nanos ≤ maxSeconds → wholeSeconds secs' nanos' ≤ maxSeconds →
      compare (new secs nanos) (new secs' nanos')
        = compare (instantOf secs nanos) (instantOf secs' nanos')) ∧
    (instantOf secs nanos ≤ instantOf secs' nanos' →
      (new secs nanos).secs ≤ (new secs' nanos').secs ∧
        (compare (new secs nanos) (new secs' nanos') = .gt ↔
          maxSeconds ≤ wholeSeconds secs nanos
            ∧ nanos'.toNat % nanosPerSecond < nanos.toNat % nanosPerSecond))
  := by
  refine ⟨(new secs nanos).nanos_lt, ?_, ?_⟩
  · intro hle hle'
    rw [compare_eq_compare_instant, instant_new_of_le hle, instant_new_of_le hle']
  · intro h
    have hwhole := wholeSeconds_le h
    refine ⟨?_, compare_new_eq_gt_iff h⟩
    rw [secs_new, secs_new]
    omega

/-- Four seconds are carried into the second before 1970, and the stamp is still earlier than that
of one nanosecond more; at the end of the range the order is turned round. -/
theorem compare_new_carried :
  wholeSeconds (-1) 4294967295 ≤ maxSeconds ∧ wholeSeconds 3 294967296 ≤ maxSeconds ∧
    compare (new (-1) 4294967295) (new 3 294967296) = .lt ∧
    instantOf 9223372036854775807 999999999 ≤ instantOf 9223372036854775807 1000000000 ∧
    compare (new 9223372036854775807 999999999) (new 9223372036854775807 1000000000) = .gt
  := by
  have hle : wholeSeconds (-1) 4294967295 ≤ maxSeconds := by decide
  have hle' : wholeSeconds 3 294967296 ≤ maxSeconds := by decide
  have hlater : instantOf 9223372036854775807 999999999
      ≤ instantOf 9223372036854775807 1000000000 := by decide
  obtain ⟨-, hcompare, -⟩ := compare_new (-1) 3 4294967295 294967296
  obtain ⟨-, -, hend⟩ := compare_new 9223372036854775807 9223372036854775807 999999999 1000000000
  refine ⟨hle, hle', ?_, hlater, (hend hlater).2.2 (by decide)⟩
  rw [hcompare hle hle']
  decide

/-- The last nanosecond that a stamp can have is followed by an earlier stamp: the second that the
nanoseconds make up is dropped, and with it the nanoseconds before it. -/
theorem not_compare_new_ne_gt :
  (¬ ∀ (secs secs' : Int64) (nanos nanos' : UInt32),
      instantOf secs nanos ≤ instantOf secs' nanos' →
        compare (new secs nanos) (new secs' nanos') ≠ .gt) ∧
    instantOf 9223372036854775807 999999999 ≤ instantOf 9223372036854775807 1000000000 ∧
    compare (new 9223372036854775807 999999999) (new 9223372036854775807 1000000000) = .gt
  := by
  have hlater : instantOf 9223372036854775807 999999999
      ≤ instantOf 9223372036854775807 1000000000 := by decide
  have hgt : compare (new 9223372036854775807 999999999) (new 9223372036854775807 1000000000)
      = .gt := (compare_new_eq_gt_iff hlater).2 (by decide)
  exact ⟨fun h => h _ _ _ _ hlater hgt, hlater, hgt⟩

end IncrementalBuild.Stamp
