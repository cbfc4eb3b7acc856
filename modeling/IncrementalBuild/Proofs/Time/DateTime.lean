import IncrementalBuild.Proofs.Text.Numeral
import IncrementalBuild.Proofs.Time.Gregorian
import IncrementalBuild.Time.Display
import Mathlib.Data.List.TakeWhile

/-!
# Reading the text of a stamp

The text of a stamp tells the stamp.  In the years 0 to 9999 it is a date and a time of the day in
the format of RFC 3339 and in Universal Time.  Its fields have fixed numbers of digits, so it can be
read in one way only, and the calendar tells the seconds from the date and the time, and the
fraction tells the nanoseconds.  In all other years the text has the seconds and the nanoseconds
themselves.  Texts of the first kind end with a letter, and those of the second with a digit.
-/

namespace IncrementalBuild

/-! ### Dates and times of the day in texts -/

/-- Digits, as many as there are places, that stand for a number. -/
structure Digits (places : Nat) (cs : List Char) (n : Int) : Prop where
  length : cs.length = places
  isDigit : ∀ c ∈ cs, Decimal.isDigit c = true
  value : (Decimal.value cs : Int) = n

/-- Three numbers with a separator between them, the second and the third with two digits each. -/
def Triple (separator : Char) (places : Nat) (text : List Char) (first second third : Int) : Prop :=
  ∃ cs ds es, text = cs ++ separator :: (ds ++ separator :: es)
    ∧ Digits places cs first ∧ Digits 2 ds second ∧ Digits 2 es third

/-- The text of a fraction of a second: a point and at least one digit, or nothing if there is no
such fraction. -/
inductive Fraction : List Char → Nat → Prop
  | none : Fraction [] 0
  | places {cs : List Char} {nanos : Nat} :
    cs ≠ [] → (∀ c ∈ cs, Decimal.isDigit c = true) →
      Decimal.value cs * nanosPerSecond = nanos * 10 ^ cs.length → Fraction ('.' :: cs) nanos

/-- A time of the day. -/
structure Clock.IsValid (clock : Clock) : Prop where
  hour : 0 ≤ clock.hour ∧ clock.hour ≤ 23
  minute : 0 ≤ clock.minute ∧ clock.minute ≤ 59
  second : 0 ≤ clock.second ∧ clock.second ≤ 59

/-- A text in the format of RFC 3339 and in Universal Time, of a date that the calendar has and a
time of the day with its nanoseconds. -/
def IsDateTime (text : List Char) (date : Date) (clock : Clock) (nanos : Nat) : Prop :=
  date.IsValid ∧ clock.IsValid ∧ ∃ day time fraction,
    text = day ++ 'T' :: (time ++ (fraction ++ ['Z']))
      ∧ Triple '-' 4 day date.year date.month date.day
      ∧ Triple ':' 2 time clock.hour clock.minute clock.second ∧ Fraction fraction nanos

/-- A text in the format of RFC 3339 for the moment some seconds and nanoseconds after the beginning
of 1970, by the calendar. -/
def Denotes (text : String) (secs : Int) (nanos : Nat) : Prop :=
  ∃ date clock days, IsDateTime text.toList date clock nanos ∧ date.Counted days
    ∧ secs = days * secondsPerDay + (clock.hour * 3600 + clock.minute * 60 + clock.second)

/-- The seconds, a point, and the nanoseconds with nine digits. -/
def IsPlain (text : String) (secs : Int) (nanos : Nat) : Prop :=
  ∃ places, text = toString secs ++ "." ++ String.ofList places ∧ Digits 9 places nanos

/-! ### Texts are read in one way -/

section

variable {cs ds es fs : List Char} {separator : Char} {places : Nat}
  {first second third first' second' third' : Int}

theorem eq_of_append_cons_eq (hlength : cs.length = es.length)
    (h : cs ++ separator :: ds = es ++ separator :: fs) :
  cs = es ∧ ds = fs
  := by
  obtain ⟨hleft, hright⟩ := List.append_inj h hlength
  exact ⟨hleft, (List.cons.inj hright).2⟩

theorem Digits.unique (h : Digits places cs first) (h' : Digits places cs first') :
  first = first'
  := by rw [← h.value, ← h'.value]

theorem Triple.length (h : Triple separator places cs first second third) :
  cs.length = places + 6
  := by
  obtain ⟨cs, ds, es, rfl, hfirst, hsecond, hthird⟩ := h
  simp [hfirst.length, hsecond.length, hthird.length]

/-- The numbers of digits tell where one number ends and the next one begins. -/
theorem Triple.unique (h : Triple separator places cs first second third)
    (h' : Triple separator places cs first' second' third') :
  first = first' ∧ second = second' ∧ third = third'
  := by
  obtain ⟨cs, ds, es, rfl, hfirst, hsecond, hthird⟩ := h
  obtain ⟨cs', ds', es', heq, hfirst', hsecond', hthird'⟩ := h'
  obtain ⟨rfl, hrest⟩ := eq_of_append_cons_eq (hfirst.length.trans hfirst'.length.symm) heq
  obtain ⟨rfl, rfl⟩ := eq_of_append_cons_eq (hsecond.length.trans hsecond'.length.symm) hrest
  exact ⟨hfirst.unique hfirst', hsecond.unique hsecond', hthird.unique hthird'⟩

theorem Fraction.unique {nanos nanos' : Nat} (h : Fraction cs nanos) (h' : Fraction cs nanos') :
  nanos = nanos'
  := by
  cases h with
  | none =>
    cases h'
    rfl
  | places _ _ hvalue =>
    cases h' with
    | places _ _ hvalue' =>
      rw [hvalue] at hvalue'
      exact Nat.eq_of_mul_eq_mul_right (Nat.pow_pos (by decide)) hvalue'

/-- A text in the format of RFC 3339 has one date and one time of the day. -/
theorem IsDateTime.unique {date date' : Date} {clock clock' : Clock} {nanos nanos' : Nat}
    (h : IsDateTime cs date clock nanos) (h' : IsDateTime cs date' clock' nanos') :
  date = date' ∧ clock = clock' ∧ nanos = nanos'
  := by
  obtain ⟨-, -, day, time, fraction, rfl, hday, htime, hfraction⟩ := h
  obtain ⟨-, -, day', time', fraction', heq, hday', htime', hfraction'⟩ := h'
  obtain ⟨rfl, hrest⟩ := eq_of_append_cons_eq (hday.length.trans hday'.length.symm) heq
  obtain ⟨rfl, hend⟩ := List.append_inj hrest (htime.length.trans htime'.length.symm)
  obtain rfl := List.append_cancel_right hend
  obtain ⟨year, month, dayOfMonth⟩ := date
  obtain ⟨hour, minute, second⟩ := clock
  obtain ⟨rfl, rfl, rfl⟩ := hday.unique hday'
  obtain ⟨rfl, rfl, rfl⟩ := htime.unique htime'
  exact ⟨rfl, rfl, hfraction.unique hfraction'⟩

end

/-- A text in the format of RFC 3339 stands for one moment. -/
theorem Denotes.unique {text : String} {secs secs' : Int} {nanos nanos' : Nat}
    (h : Denotes text secs nanos) (h' : Denotes text secs' nanos') :
  secs = secs' ∧ nanos = nanos'
  := by
  obtain ⟨date, clock, days, htext, hdays, rfl⟩ := h
  obtain ⟨date', clock', days', htext', hdays', rfl⟩ := h'
  obtain ⟨rfl, rfl, rfl⟩ := htext.unique htext'
  rw [← (Date.counted_iff.1 hdays).2, ← (Date.counted_iff.1 hdays').2]
  exact ⟨rfl, rfl⟩

theorem IsPlain.unique {text : String} {secs secs' : Int} {nanos nanos' : Nat}
    (h : IsPlain text secs nanos) (h' : IsPlain text secs' nanos') :
  secs = secs' ∧ nanos = nanos'
  := by
  obtain ⟨places, rfl, hplaces⟩ := h
  obtain ⟨places', heq, hplaces'⟩ := h'
  have hchars := congrArg String.toList heq
  simp only [String.toList_append, String.toList_ofList, List.append_assoc] at hchars
  have hlength : places.length = places'.length := hplaces.length.trans hplaces'.length.symm
  obtain ⟨hsecs, hrest⟩ := List.append_inj' hchars (by simp [hlength])
  obtain rfl := List.append_cancel_left hrest
  constructor
  · have hread := congrArg Decimal.toInt? hsecs
    rw [← Decimal.ofInt_eq_toString, ← Decimal.ofInt_eq_toString, Decimal.toInt?_ofInt,
      Decimal.toInt?_ofInt] at hread
    exact Option.some.inj hread
  · exact Int.ofNat.inj (hplaces.unique hplaces')

/-- A text in the format of RFC 3339 is not plain: it ends with a letter. -/
theorem Denotes.not_isPlain {text : String} {secs secs' : Int} {nanos nanos' : Nat}
    (h : Denotes text secs nanos) :
  ¬ IsPlain text secs' nanos'
  := by
  rintro ⟨places, rfl, hplaces⟩
  obtain ⟨date, clock, days, ⟨-, -, day, time, fraction, heq, -⟩, -⟩ := h
  have hne : places ≠ [] := List.ne_nil_of_length_pos (by simp [hplaces.length])
  have hletter : day ++ 'T' :: (time ++ (fraction ++ ['Z']))
      = (day ++ 'T' :: (time ++ fraction)) ++ ['Z'] := by simp
  have hlast := congrArg List.getLast? heq
  rw [hletter, List.getLast?_concat, String.toList_append, String.toList_ofList,
    List.getLast?_append, List.getLast?_eq_some_getLast hne, Option.some_or] at hlast
  have hdigit := hplaces.isDigit _ (List.getLast_mem hne)
  rw [Option.some.inj hlast] at hdigit
  cases hdigit

/-! ### The text of a stamp -/

theorem digits_fixed {places n : Nat} (h : n < 10 ^ places) :
  Digits places (Decimal.fixed places n) n
  := by
  constructor
  case length => exact Decimal.length_fixed places n
  case isDigit => exact fun _ => Decimal.isDigit_of_mem_fixed
  case value => rw [Decimal.value_fixed_of_lt h]

theorem digits_fixed_toNat {places : Nat} {n : Int} (hnonneg : 0 ≤ n)
    (hlt : n.toNat < 10 ^ places) :
  Digits places (Decimal.fixed places n.toNat) n
  := by
  have h := digits_fixed hlt
  rwa [Int.toNat_of_nonneg hnonneg] at h

/-- Three numbers that are not negative and do not have too many digits are written as such. -/
theorem triple_fixed (separator : Char) (places : Nat) (first second third : Int)
    (hfirst : 0 ≤ first ∧ first.toNat < 10 ^ places) (hsecond : 0 ≤ second ∧ second ≤ 99)
    (hthird : 0 ≤ third ∧ third ≤ 99) :
  Triple separator places
    (Decimal.fixed places first.toNat
      ++ separator :: (Stamp.twoPlaces second ++ separator :: Stamp.twoPlaces third))
    first second third
  := by
  refine ⟨_, _, _, rfl, digits_fixed_toNat hfirst.1 hfirst.2, ?_, ?_⟩
  · apply digits_fixed_toNat hsecond.1
    omega
  · apply digits_fixed_toNat hthird.1
    omega

theorem exists_eq_append_zeros (cs : List Char) :
  ∃ count, cs = (cs.reverse.dropWhile (· = '0')).reverse ++ List.replicate count '0'
  := by
  refine ⟨(cs.reverse.takeWhile (· = '0')).length, ?_⟩
  have hzeros : cs.reverse.takeWhile (· = '0')
      = List.replicate (cs.reverse.takeWhile (· = '0')).length '0' := by
    apply List.eq_replicate_of_mem
    intro c hc
    simpa using List.mem_takeWhile_imp hc
  rw [← List.reverse_replicate, ← hzeros, ← List.reverse_append, List.takeWhile_append_dropWhile,
    List.reverse_reverse]

/-- The zeros that a fraction ends with are left out. -/
theorem fraction_fraction {nanos : Nat} (h : nanos < nanosPerSecond) :
  Fraction (Stamp.fraction nanos) nanos
  := by
  have hfixed : Digits 9 (Decimal.fixed 9 nanos) nanos := digits_fixed h
  obtain ⟨count, hcount⟩ := exists_eq_append_zeros (Decimal.fixed 9 nanos)
  unfold Stamp.fraction
  generalize ((Decimal.fixed 9 nanos).reverse.dropWhile (· = '0')).reverse = places at hcount
  have hvalue : Decimal.value places * 10 ^ count = nanos := by
    rw [← Decimal.value_append_zeros, ← hcount]
    exact Int.ofNat.inj hfixed.value
  have hlength : places.length + count = 9 := by
    have hlength := hfixed.length
    rwa [hcount, List.length_append, List.length_replicate] at hlength
  split
  · have hzero : nanos = 0 := by
      rw [← hvalue]
      exact Nat.zero_mul _
    rw [hzero]
    exact .none
  · next hne =>
    apply Fraction.places hne
    · intro c hc
      apply hfixed.isDigit
      rw [hcount]
      exact List.mem_append_left _ hc
    · have hsecond : nanosPerSecond = 10 ^ count * 10 ^ places.length := by
        rw [← Nat.pow_add, Nat.add_comm, hlength]
        rfl
      rw [hsecond, ← Nat.mul_assoc, hvalue]

/-- A date in a year of four digits and a time of the day are written in the format of RFC 3339. -/
theorem isDateTime_dateTime {date : Date} {clock : Clock} {nanos : Nat} (hdate : date.IsValid)
    (hyear : 0 ≤ date.year ∧ date.year ≤ 9999) (hclock : clock.IsValid)
    (hnanos : nanos < nanosPerSecond) :
  IsDateTime (Stamp.dateTime date clock nanos) date clock nanos
  := by
  have ⟨hmonth, hmonth', hone, hle⟩ := hdate
  have ⟨hhour, hminute, hsecond⟩ := hclock
  have hlength := Date.monthLength_bounds date.year date.month
  have hday := triple_fixed '-' 4 date.year date.month date.day (by omega) (by omega) (by omega)
  have htime := triple_fixed ':' 2 clock.hour clock.minute clock.second (by omega) (by omega)
    (by omega)
  refine ⟨hdate, hclock, _, _, _, ?_, hday, htime, fraction_fraction hnanos⟩
  simp only [Stamp.dateTime, Stamp.twoPlaces, List.append_assoc, List.cons_append]

namespace Stamp

variable {t : Stamp}

/-- In a year of four digits the text of a stamp stands for the stamp. -/
theorem denotes_display (h : 0 ≤ t.year ∧ t.year ≤ 9999) :
  Denotes t.display t.secs t.nanos
  := by
  refine ⟨Date.ofSeconds t.secs, Clock.ofSeconds t.secs, t.secs / secondsPerDay, ?_,
    Date.counted_ofDays _, ?_⟩
  · rw [display, if_pos h, String.toList_ofList]
    obtain ⟨hhour, hminute, hsecond⟩ := Clock.ofSeconds_bounds t.secs
    exact isDateTime_dateTime (Date.isValid_ofDays _) h ⟨hhour, hminute, hsecond⟩ t.nanos_lt
  · simp only [Clock.ofSeconds, secondsPerDay]
    omega

theorem isPlain_display (h : ¬ (0 ≤ t.year ∧ t.year ≤ 9999)) :
  IsPlain t.display t.secs t.nanos
  := by
  refine ⟨Decimal.fixed 9 t.nanos, ?_, digits_fixed t.nanos_lt⟩
  rw [display, if_neg h, Decimal.ofInt_eq_toString]

theorem eq_of_parts_eq {u : Stamp} (h : t.secs = u.secs ∧ t.nanos = u.nanos) :
  t = u
  := by
  obtain ⟨secs, nanos, _, _, _⟩ := t
  obtain ⟨secs', nanos', _, _, _⟩ := u
  obtain ⟨rfl, rfl⟩ := h
  rfl

/-- Stamps with the same text are the same. -/
theorem eq_of_display_eq {u : Stamp} (h : t.display = u.display) :
  t = u
  := by
  apply eq_of_parts_eq
  by_cases ht : 0 ≤ t.year ∧ t.year ≤ 9999
  · have hdenotes := denotes_display ht
    rw [h] at hdenotes
    by_cases hu : 0 ≤ u.year ∧ u.year ≤ 9999
    · exact hdenotes.unique (denotes_display hu)
    · exact absurd (isPlain_display hu) hdenotes.not_isPlain
  · have hplain := isPlain_display ht
    rw [h] at hplain
    by_cases hu : 0 ≤ u.year ∧ u.year ≤ 9999
    · exact absurd hplain (denotes_display hu).not_isPlain
    · exact hplain.unique (isPlain_display hu)

/-- The text of a stamp loses nothing.  No two stamps have the same text.  The calendar has a date
for the days of a stamp: if the year is one from 0 to 9999 the text is in the format of RFC 3339,
and it stands by the calendar for the seconds and the nanoseconds of the stamp and for no others;
otherwise it has the seconds, a point, and the nanoseconds with nine digits. -/
theorem display_exact (t : Stamp) :
  (∀ u : Stamp, t.display = u.display ↔ t = u) ∧
    ∃ date : Date, date.Counted (t.secs / secondsPerDay) ∧
      if 0 ≤ date.year ∧ date.year ≤ 9999 then
        ∀ secs nanos, Denotes t.display secs nanos ↔ secs = t.secs ∧ nanos = t.nanos
      else
        IsPlain t.display t.secs t.nanos
  := by
  refine ⟨fun u => ⟨eq_of_display_eq, congrArg display⟩, Date.ofSeconds t.secs,
    Date.counted_ofDays _, ?_⟩
  split
  · next hyear =>
    intro secs nanos
    constructor
    · intro h
      exact h.unique (denotes_display hyear)
    · rintro ⟨rfl, rfl⟩
      exact denotes_display hyear
  · next hyear => exact isPlain_display hyear

example : (new 951782400 120000000).display = "2000-02-29T00:00:00.12Z" := by decide

end Stamp

end IncrementalBuild
