import IncrementalBuild.Proofs.Time.Calendar
import IncrementalBuild.System.Host
import IncrementalBuild.Time.Moment

/-!
# File times and their stamps

A file time that lies in the calendar is read exactly, also before 1970: the stamp has its seconds
and its nanoseconds, so stamps of files are in the order of the times of the files.  A file time
outside the calendar is not read at all, and a program that looks at such a file panics; the first
such time is the beginning of the year 10000.
-/

namespace IncrementalBuild

namespace Stamp

/-- Stamps are compared as the moments are. -/
theorem compare_eq_compare_instant (s t : Stamp) :
  compare s t = compare s.instant t.instant
  := by
  have hs := s.nanos_lt
  have ht := t.nanos_lt
  change (compare s.secs t.secs).then (compare s.nanos t.nanos) = _
  simp only [instant, nanosPerSecond] at *
  rcases Int.lt_trichotomy s.secs t.secs with hlt | heq | hgt
  · rw [Int.compare_eq_lt.2 hlt, Int.compare_eq_lt.2 (by omega)]
    rfl
  · rw [Int.compare_eq_eq.2 heq, heq, Ordering.then]
    rcases Nat.lt_trichotomy s.nanos t.nanos with hlt | heq | hgt
    · rw [Nat.compare_eq_lt.2 hlt, Int.compare_eq_lt.2 (by omega)]
    · rw [Nat.compare_eq_eq.2 heq, Int.compare_eq_eq.2 (by omega)]
    · rw [Nat.compare_eq_gt.2 hgt, Int.compare_eq_gt.2 (by omega)]
  · rw [Int.compare_eq_gt.2 hgt, Int.compare_eq_gt.2 (by omega)]
    rfl

/-- Nothing is carried if the nanoseconds are short of a second. -/
theorem parts_new (secs : Int64) {nanos : UInt32} (h : nanos.toNat < nanosPerSecond) :
  (new secs nanos).secs = secs.toInt ∧ (new secs nanos).nanos = nanos.toNat
  := by
  have hlt := Int64.toInt_lt secs
  simp only [new, Nat.div_eq_of_lt h, Nat.mod_eq_of_lt h, maxSeconds, and_true]
  omega

theorem inCalendar_iff (t : Stamp) :
  t.InCalendar ↔ -377705116800 ≤ t.secs ∧ t.secs ≤ 253402300799
  := year_ofSeconds_bounds_iff

/-- A file time is read as it is if it lies in the calendar. -/
theorem ofFileTime?_self (t : Stamp) :
  ofFileTime? t.secs t.nanos = if t.InCalendar then some t else none
  := by
  by_cases h : t.InCalendar
  · have hmoment : Moment.ofUnix? t.secs t.nanos
        = some ⟨Date.ofSeconds t.secs, Clock.ofSeconds t.secs, t.nanos, h⟩ := dif_pos h
    have hparts := And.intro t.minSeconds_le (And.intro t.le_maxSeconds t.nanos_lt)
    rw [if_pos h, ofFileTime?, hmoment, Option.bind_some, Moment.seconds, secondsOf_ofSeconds,
      ofParts?, dif_pos hparts]
  · have hmoment : Moment.ofUnix? t.secs t.nanos = none := dif_neg h
    rw [if_neg h, ofFileTime?, hmoment, Option.bind_none]

end Stamp

/-- A file time is read exactly if it lies between two bounds, and not at all otherwise.  The stamp
that is read has the seconds and the nanoseconds of the file time, and two such stamps compare as
the times do.  So of a file that is there the time is told, or else the program panics; of a file
that is not there it is told that there is none, and if the time cannot be found out, why not. -/
theorem fileTime_exact (secs secs' : Int64) (nanos nanos' : UInt32)
    (hnanos : nanos.toNat < nanosPerSecond) (hnanos' : nanos'.toNat < nanosPerSecond) :
  Stamp.ofFileTime? secs.toInt nanos.toNat
      = (if -377705116800 ≤ secs.toInt ∧ secs.toInt ≤ 253402300799 then some (.new secs nanos)
          else none) ∧
    ((Stamp.new secs nanos).secs = secs.toInt ∧ (Stamp.new secs nanos).nanos = nanos.toNat) ∧
    compare (Stamp.new secs nanos) (Stamp.new secs' nanos')
      = compare (secs.toInt * nanosPerSecond + nanos.toNat)
          (secs'.toInt * nanosPerSecond + nanos'.toNat) ∧
    ∀ (World : Type) (system : System World) (directory : String) (world : World) (name : String),
      let path := Path.join directory name
      (system.stat world path = .ok (.new secs nanos) →
        system.modified directory world name =
          if -377705116800 ≤ secs.toInt ∧ secs.toInt ≤ 253402300799 then
            .ok (some (.new secs nanos))
          else
            .error .panic) ∧
      ∀ e, system.stat world path = .error e →
        system.modified directory world name =
          if e.isAbsence then .ok none else .error (.failure ⟨path, e⟩)
  := by
  obtain ⟨hsecs, hparts⟩ := Stamp.parts_new secs hnanos
  obtain ⟨hsecs', hparts'⟩ := Stamp.parts_new secs' hnanos'
  have hread := Stamp.ofFileTime?_self (.new secs nanos)
  simp only [Stamp.inCalendar_iff, hsecs, hparts] at hread
  refine ⟨hread, ⟨hsecs, hparts⟩, ?_, ?_⟩
  · rw [Stamp.compare_eq_compare_instant, Stamp.instant, Stamp.instant, hsecs, hparts, hsecs',
      hparts']
  · intro World system directory world name path
    constructor
    · intro hstat
      simp only [System.modified, path, hstat, hsecs, hparts, hread]
      by_cases hbounds : -377705116800 ≤ secs.toInt ∧ secs.toInt ≤ 253402300799
      · rw [if_pos hbounds, if_pos hbounds]
      · rw [if_neg hbounds, if_neg hbounds]
    · intro e hstat
      simp only [System.modified, path, hstat]

/-- Half a second before 1970 is read, and is earlier than the beginning of 1970. -/
theorem fileTime_exact_beforeEpoch :
  (500000000 : UInt32).toNat < nanosPerSecond ∧ (0 : UInt32).toNat < nanosPerSecond ∧
    Stamp.ofFileTime? (-1) 500000000 = some (.new (-1) 500000000) ∧
    compare (Stamp.new (-1) 500000000) (Stamp.new 0 0) = .lt
  := by
  have hhalf : (500000000 : UInt32).toNat < nanosPerSecond := by decide
  have hzero : (0 : UInt32).toNat < nanosPerSecond := by decide
  obtain ⟨hread, -, hcompare, -⟩ := fileTime_exact (-1) 0 500000000 0 hhalf hzero
  exact ⟨hhalf, hzero, hread, hcompare⟩

/-- A system all of whose files were modified at one time, and whose shell does nothing. -/
def System.dated (time : Stamp) : System Unit where
  isFile _ _ := true
  read _ _ := .ok ""
  stat _ _ := .ok time
  shell _ _ _ := (.ok (.exited 0), ())

/-- The beginning of the year 10000 fits in a file time, but it is not read, and to look at a file
of that time makes the program panic. -/
theorem not_ofFileTime?_eq_some :
  (¬ ∀ (secs : Int64) (nanos : UInt32), nanos.toNat < nanosPerSecond →
      Stamp.ofFileTime? secs.toInt nanos.toNat = some (.new secs nanos)) ∧
    Stamp.ofFileTime? (253402300800 : Int64).toInt (0 : UInt32).toNat = none ∧
    (System.dated (.new 253402300800 0)).modified "." () "app" = .error .panic
  := by
  have hnone : Stamp.ofFileTime? (253402300800 : Int64).toInt (0 : UInt32).toNat = none := by decide
  have hstamp : Stamp.ofFileTime? (Stamp.new 253402300800 0).secs (Stamp.new 253402300800 0).nanos
      = none := by decide
  refine ⟨?_, hnone, by simp only [System.modified, System.dated, hstamp]⟩
  intro h
  rw [h 253402300800 0 (by decide)] at hnone
  cases hnone

end IncrementalBuild
