import IncrementalBuild.CommandLine.Options
import IncrementalBuild.CommandLine.Reading
import IncrementalBuild.Proofs.BuildFile.Scanning

/-!
# What a parser finds

`Reading.parser` implements arguments that are declared well.  Words are read one after the other,
so a command line that has been accepted can be gone on with, unless something on it ends the
options.  What has been given is kept, by the names of the arguments, and an argument that is new is
put before the others.
-/

namespace IncrementalBuild.CommandLine

open BuildFile

/-- The arguments can be told apart, and their long names can be told apart from values. -/
structure WellDeclared (declared : List Argument) : Prop where
  id : ∀ argument ∈ declared, ∀ other ∈ declared, argument.id = other.id → argument = other
  long : ∀ argument ∈ declared, ∀ other ∈ declared, argument.long.isSome →
    argument.long = other.long → argument = other
  name : ∀ argument ∈ declared, ∀ long ∈ argument.long, long ≠ "" ∧ '=' ∉ long.toList

theorem wellDeclared_declared :
  WellDeclared Options.declared
  := by constructor <;> decide

/-- What is the only one of its kind is found. -/
theorem find?_eq_some_of_unique {α : Type} {kind : α → Bool} {items : List α} {item : α}
    (hmem : item ∈ items) (hitem : kind item = true)
    (hunique : ∀ other ∈ items, kind other = true → item = other) :
  items.find? kind = some item
  := by
  cases hfind : items.find? kind with
  | none => exact absurd hitem (List.find?_eq_none.1 hfind item hmem)
  | some other => rw [hunique other (List.mem_of_find?_eq_some hfind) (List.find?_some hfind)]

/-- What is not given does not come from the command line. -/
theorem Argument.source_of_fallback {argument : Argument} {surroundings : String → Option String}
    {value : Value} (h : argument.fallback surroundings = some ⟨value, .commandLine⟩) :
  False
  := by
  unfold fallback at h
  split at h
  · cases h
  · split at h
    · cases h
    · cases hdefault : argument.default <;> simp [hdefault] at h

namespace Reading

variable {declared : List Argument} {surroundings : String → Option String} {words : List String}
  {reading settled : Reading} {argument : Argument} {found : Matches} {id : String} {value : Value}

/-! ### What has been given -/

/-- What has been given is found. -/
theorem isGiven_found_iff (declared : List Argument) (given : Given)
    (surroundings : String → Option String) (id : String) :
  (Given.found declared given surroundings).IsGiven id ↔ (given.lookup id).isSome
  := by
  simp only [Matches.IsGiven, Given.found]
  cases given.lookup id with
  | some value => simp
  | none =>
    simp only [Option.isSome_none, Bool.false_eq_true, iff_false, not_exists]
    intro value hvalue
    obtain ⟨argument, -, hfallback⟩ := Option.bind_eq_some_iff.1 hvalue
    apply argument.source_of_fallback hfallback

theorem found_of_not_isGiven {given : Given} (hwell : WellDeclared declared)
    (hmem : argument ∈ declared)
    (h : ¬ (Given.found declared given surroundings).IsGiven argument.id) :
  (Given.found declared given surroundings).find? argument.id = argument.fallback surroundings
  := by
  rw [isGiven_found_iff, Option.not_isSome_iff_eq_none] at h
  have hfind : declared.find? (·.id = argument.id) = some argument :=
    find?_eq_some_of_unique hmem (decide_eq_true rfl) fun other hother hid =>
      hwell.id argument hmem other hother (of_decide_eq_true hid).symm
  simp only [Given.found, h, hfind, Option.bind_some]

/-- An argument that is put before the others is given beside them. -/
theorem found_cons (declared : List Argument) (given : Given)
    (surroundings : String → Option String) (id : String) (value : Value) :
  Given.found declared ((id, value) :: given) surroundings
    = (Given.found declared given surroundings).give id value
  := by
  ext1
  funext other
  simp only [Given.found, Matches.give, List.lookup_cons]
  by_cases hother : other = id
  · simp [hother]
  · rw [if_neg hother, beq_false_of_ne hother]

/-! ### Settling -/

theorem pending_of_settle (h : reading.settle = .ok settled) :
  settled.pending = none
  := by
  unfold settle at h
  split at h
  · next hnone =>
    cases h
    exact hnone
  · split at h
    · cases h
    · cases h
      rfl

theorem settle_of_pending (reading : Reading) (h : reading.pending = none) :
  reading.settle = .ok reading
  := by simp only [settle, h]

/-- An argument is accepted if it has a value and has not been given. -/
theorem accept_eq_ok_iff {given after : Given} {subject : Subject} {text? : Option String} :
  given.accept subject text? = .ok after ↔
    ∃ argument value, subject = .declared argument ∧ argument.valueOf? text? = some value ∧
      given.lookup argument.id = none ∧ after = (argument.id, value) :: given
  := by
  cases subject with
  | help | version => simp [Given.accept]
  | declared argument =>
    simp only [Given.accept, Subject.declared.injEq, exists_and_left, exists_eq_left']
    cases argument.valueOf? text? with
    | none => simp
    | some value =>
      simp only [Option.some.injEq, exists_eq_left']
      cases given.lookup argument.id with
      | none => simp [eq_comm]
      | some other => simp

/-- What is taken down is given when it is made effective. -/
theorem holds_of_settle (h : reading.settle = .ok settled) (hid : settled.given.lookup id = none) :
  reading.holds id = false
  := by
  unfold settle at h
  unfold holds
  cases hpending : reading.pending with
  | none =>
    simp only [hpending] at h
    cases h
    simp [hid]
  | some taken =>
    obtain ⟨subject, text?⟩ := taken
    simp only [hpending] at h
    split at h
    · cases h
    · next given haccept =>
      cases h
      obtain ⟨argument, value, rfl, -, -, rfl⟩ := accept_eq_ok_iff.1 haccept
      simp only [List.lookup_cons] at hid
      by_cases hargument : id = argument.id
      · rw [hargument, beq_self_eq_true] at hid
        cases hid
      · rw [beq_false_of_ne hargument] at hid
        simp [hid, Ne.symm hargument]

/-- An argument that has not been given is accepted when what has been taken down is effective. -/
theorem apply_of_settle {text? : Option String} (h : reading.settle = .ok settled)
    (hvalue : argument.valueOf? text? = some value)
    (hnew : settled.given.lookup argument.id = none) :
  reading.apply (.declared argument) text?
    = .ok { settled with given := (argument.id, value) :: settled.given }
  := by
  have haccept : settled.given.accept (.declared argument) text?
      = .ok ((argument.id, value) :: settled.given) :=
    accept_eq_ok_iff.2 ⟨argument, value, rfl, hvalue, hnew, rfl⟩
  simp only [apply, h, haccept]

/-! ### Reading on -/

/-- If nothing has ended the options, a command line can be gone on with. -/
theorem readWords_append (hopen : "--" ∉ words) {start : Reading}
    (h : readWords declared start words = .ok reading) (rest : List String) :
  readWords declared start (words ++ rest) = readWords declared reading rest
  := by
  induction words generalizing start with
  | nil =>
    cases h
    rfl
  | cons word words ih =>
    obtain ⟨hword, hwords⟩ := not_or.1 (mt List.mem_cons.2 hopen)
    rw [List.cons_append, readWords, if_neg (Ne.symm hword)]
    rw [readWords, if_neg (Ne.symm hword)] at h
    cases hread : start.readWord declared word with
    | error e =>
      rw [hread] at h
      cases h
    | ok next =>
      rw [hread] at h
      exact ih hwords h

/-- A long name stands for its argument. -/
theorem ofLong?_of_mem (hwell : WellDeclared declared) (hmem : argument ∈ declared) {long : String}
    (hlong : long ∈ argument.long) :
  ofLong? declared long = some (.declared argument)
  := by
  have hfind : declared.find? (·.long = some long) = some argument := by
    apply find?_eq_some_of_unique hmem (decide_eq_true hlong)
    intro other hother hsame
    have hsome : argument.long = some long := hlong
    apply hwell.long argument hmem other hother (by rw [hsome, Option.isSome_some])
    rw [hsome, of_decide_eq_true hsame]
  simp only [ofLong?, hfind]

theorem dashes_append_ne {rest : String} (h : rest ≠ "") :
  "--" ++ rest ≠ "--"
  := by
  intro heq
  apply h
  simpa using congrArg String.toList heq

/-- A word with two dashes in front and no equals sign is a long option without a value. -/
theorem readWord_long (declared : List Argument) (reading : Reading) {long : String}
    (hlong : '=' ∉ long.toList) :
  reading.readWord declared ("--" ++ long) = reading.readLong declared long none
  := by
  have hword : ("--" ++ long).toList = '-' :: '-' :: long.toList := by simp
  have hall := forall_ne_of_notMem hlong
  simp only [readWord, hword, List.takeWhile_eq_self_iff.2 hall, List.dropWhile_eq_nil_iff.2 hall,
    String.ofList_toList]

/-- The value of a long option is all that is behind the first equals sign. -/
theorem readWord_long_value (declared : List Argument) (reading : Reading) {long : String}
    (hlong : '=' ∉ long.toList) (text : String) :
  reading.readWord declared ("--" ++ long ++ "=" ++ text)
    = reading.readLong declared long (some text)
  := by
  have hword : ("--" ++ long ++ "=" ++ text).toList
      = '-' :: '-' :: (long.toList ++ '=' :: text.toList) := by simp
  simp only [readWord, hword, takeWhile_append_of_notMem hlong, dropWhile_append_of_notMem hlong,
    String.ofList_toList]

/-- What is required has been found. -/
def Suffices (declared : List Argument) (found : Matches) : Prop :=
  ∀ argument ∈ declared, argument.isRequired = true → (found.find? argument.id).isSome = true

theorem Suffices.give (h : Suffices declared found) (id : String) (value : Value) :
  Suffices declared (found.give id value)
  := by
  intro argument hmem hrequired
  simp only [Matches.give]
  split
  · rfl
  · exact h argument hmem hrequired

/-- How a command line is accepted: its words are read, what is taken down is made effective, and
what is required has been found. -/
structure Accepts (declared : List Argument) (surroundings : String → Option String)
    (words : List String) (reading settled : Reading) : Prop where
  read : start.readWords declared words = .ok reading
  settle : reading.settle = .ok settled
  suffices_found : Suffices declared (Given.found declared settled.given surroundings)

theorem parser_eq_ok_iff :
  parser declared surroundings words = .ok found ↔
    ∃ reading settled, Accepts declared surroundings words reading settled ∧
      found = Given.found declared settled.given surroundings
  := by
  have hsuffices (given : Given) :
      (declared.any fun argument =>
          argument.isRequired &&
            ((Given.found declared given surroundings).find? argument.id).isNone) = false ↔
        Suffices declared (Given.found declared given surroundings) := by
    simp [Suffices, Option.isSome_iff_ne_none]
  constructor
  · intro h
    unfold parser at h
    split at h
    · cases h
    · next reading hread =>
      split at h
      · cases h
      · next settled hsettle =>
        dsimp only at h
        split at h
        · cases h
        · next hlacking =>
          cases h
          have hfound := (hsuffices settled.given).1 (Bool.eq_false_iff.2 hlacking)
          exact ⟨reading, settled, ⟨hread, hsettle, hfound⟩, rfl⟩
  · rintro ⟨reading, settled, ⟨hread, hsettle, hfound⟩, rfl⟩
    simp only [parser, hread, hsettle, (hsuffices settled.given).2 hfound, Bool.false_eq_true,
      if_false]

/-! ### What is asked of a parser -/

/-- A command line that is accepted can be gone on with by a word that gives a new argument. -/
theorem Accepts.snoc (h : Accepts declared surroundings words reading settled)
    (hopen : "--" ∉ words) {word : String} {text? : Option String} (hword : word ≠ "--")
    (hread : reading.readWord declared word = reading.apply (.declared argument) text?)
    (hvalue : argument.valueOf? text? = some value)
    (hnew : ¬ (Given.found declared settled.given surroundings).IsGiven argument.id) :
  parser declared surroundings (words ++ [word])
    = .ok ((Given.found declared settled.given surroundings).give argument.id value)
  := by
  rw [isGiven_found_iff, Option.not_isSome_iff_eq_none] at hnew
  let next : Reading := ⟨(argument.id, value) :: settled.given, settled.pending⟩
  have hnext : reading.readWord declared word = .ok next :=
    hread.trans (apply_of_settle h.settle hvalue hnew)
  have hpending : settled.pending = none := pending_of_settle h.settle
  rw [← found_cons]
  refine parser_eq_ok_iff.2 ⟨next, next, ⟨?_, next.settle_of_pending hpending, ?_⟩, rfl⟩
  · rw [readWords_append hopen h.read, readWords, if_neg hword, hnext]
    rfl
  · rw [found_cons]
    exact h.suffices_found.give _ _

/-- Behind two dashes, the word for the argument that is no option is taken down, and it is
effective at the end. -/
theorem Accepts.positional (h : Accepts declared surroundings words reading settled)
    (hopen : "--" ∉ words) (honly : declared.filter (·.isPositional) = [argument])
    (hkind : argument.isSwitch = false) (text : String)
    (hnew : ¬ (Given.found declared settled.given surroundings).IsGiven argument.id) :
  parser declared surroundings (words ++ ["--", text])
    = .ok ((Given.found declared settled.given surroundings).give argument.id (.text text))
  := by
  rw [isGiven_found_iff, Option.not_isSome_iff_eq_none] at hnew
  have hfind : declared.find? (·.isPositional) = some argument := by
    rw [← List.head?_filter, honly, List.head?_cons]
  have hvalue : argument.valueOf? (some text) = some (.text text) := by
    simp [Argument.valueOf?, hkind]
  let taken : Reading := ⟨settled.given, some (.declared argument, some text)⟩
  let next : Reading := ⟨(argument.id, .text text) :: settled.given, none⟩
  have htaken : reading.readPositional declared text = .ok taken := by
    simp only [readPositional, hfind, holds_of_settle h.settle hnew, Bool.false_eq_true, if_false,
      takeDown, h.settle, taken]
  have hnext : taken.settle = .ok next := by
    have haccept := accept_eq_ok_iff.2 ⟨argument, _, rfl, hvalue, hnew, rfl⟩
    simp only [Reading.settle, taken, haccept, next]
  rw [← found_cons]
  refine parser_eq_ok_iff.2 ⟨taken, next, ⟨?_, hnext, ?_⟩, rfl⟩
  · rw [readWords_append hopen h.read, readWords, if_pos rfl, readPositionals, htaken]
    rfl
  · rw [found_cons]
    exact h.suffices_found.give _ _

/-- The parser implements arguments that are declared well. -/
theorem parser_implements (hwell : WellDeclared declared) :
  (parser declared).Implements declared
  where
  nothing := by
    intro hrequired surroundings
    refine ⟨_, parser_eq_ok_iff.2 ⟨start, start, ⟨rfl, rfl, ?_⟩, rfl⟩, ?_⟩
    · intro argument hmem hneeded
      rw [hrequired argument hmem] at hneeded
      cases hneeded
    · intro argument _
      rw [isGiven_found_iff]
      exact Bool.false_ne_true
  fallback := by
    intro surroundings words found hfound argument hmem hnew
    obtain ⟨reading, settled, -, rfl⟩ := parser_eq_ok_iff.1 hfound
    exact found_of_not_isGiven hwell hmem hnew
  option := by
    intro surroundings words found hfound hopen argument hmem long hlong hkind hnew text _
    obtain ⟨reading, settled, haccepts, rfl⟩ := parser_eq_ok_iff.1 hfound
    obtain ⟨-, hplain⟩ := hwell.name argument hmem long hlong
    have hread : reading.readWord declared ("--" ++ long ++ "=" ++ text)
        = reading.apply (.declared argument) (some text) := by
      rw [readWord_long_value declared reading hplain]
      simp [readLong, ofLong?_of_mem hwell hmem hlong, Subject.takesValue, hkind]
    have hvalue : argument.valueOf? (some text) = some (.text text) := by
      simp [Argument.valueOf?, hkind]
    have hword : "--" ++ long ++ "=" ++ text ≠ "--" := by
      rw [String.append_assoc, String.append_assoc]
      exact dashes_append_ne (by simp)
    exact haccepts.snoc hopen hword hread hvalue hnew
  switch := by
    intro surroundings words found hfound hopen argument hmem long hlong hkind hnew
    obtain ⟨reading, settled, haccepts, rfl⟩ := parser_eq_ok_iff.1 hfound
    obtain ⟨hname, hplain⟩ := hwell.name argument hmem long hlong
    have hread : reading.readWord declared ("--" ++ long)
        = reading.apply (.declared argument) none := by
      rw [readWord_long declared reading hplain]
      simp [readLong, ofLong?_of_mem hwell hmem hlong, Subject.takesValue, hkind]
    have hvalue : argument.valueOf? none = some (.switch true) := by
      simp [Argument.valueOf?, hkind]
    exact haccepts.snoc hopen (dashes_append_ne hname) hread hvalue hnew
  positional := by
    intro surroundings words found hfound hopen argument honly hkind hnew text _
    obtain ⟨reading, settled, haccepts, rfl⟩ := parser_eq_ok_iff.1 hfound
    exact haccepts.positional hopen honly hkind text hnew

end Reading

end IncrementalBuild.CommandLine
