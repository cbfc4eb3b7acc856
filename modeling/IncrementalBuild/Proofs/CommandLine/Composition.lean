import IncrementalBuild.Proofs.CommandLine.Reading
import Mathlib.Data.List.Nodup

/-!
# Options one after the other

Long options compose, for every parser that implements what the program declares.  Each has its own
place among what is found: it fills that place, whatever has been given before it in other places,
and it leaves those as they are.  So arguments that give each option once at most are read in any
order, whatever the values are, and every field of the options has its value from the arguments, or
else from the surroundings, or else its default.
-/

namespace IncrementalBuild

namespace CommandLine

/-- The options that have a long name, without those that ask for help and for the version. -/
inductive Flag
  | file
  | directory
  | verbose
  | graph
deriving DecidableEq, Repr

namespace Flag

variable (file directory : String)

/-- The argument that gives an option, with its value if it takes one. -/
def argument : Flag → String
  | .file => "--file=" ++ file
  | .directory => "--directory=" ++ directory
  | .verbose => "--verbose"
  | .graph => "--graph"

/-- The name that the option is found by. -/
def id : Flag → String
  | .file => "file"
  | .directory => "directory"
  | .verbose => "verbose"
  | .graph => "graph"

/-- What is given by the option. -/
def value : Flag → Value
  | .file => .text file
  | .directory => .text directory
  | .verbose | .graph => .switch true

/-- The option as it is declared. -/
def declaration : Flag → Argument
  | .file => Options.declared[0]
  | .directory => Options.declared[1]
  | .verbose => Options.declared[2]
  | .graph => Options.declared[3]

theorem declaration_mem (flag : Flag) :
  flag.declaration ∈ Options.declared
  := by cases flag <;> decide

theorem id_declaration (flag : Flag) :
  flag.declaration.id = flag.id
  := by cases flag <;> rfl

theorem id_injective {flag other : Flag} (h : flag.id = other.id) :
  flag = other
  := by cases flag <;> cases other <;> simp [id] at h ⊢

end Flag

/-- The arguments that give a target, whatever it looks like. -/
def targetArguments : Option String → List String
  | none => []
  | some target => ["--", target]

section

variable {parser : ArgumentParser} {surroundings : String → Option String} {words : List String}
  {found : Matches} {file directory : String} {flags : List Flag}

theorem notMem_dashes (file directory : String) (flags : List Flag) :
  "--" ∉ flags.map (·.argument file directory)
  := by
  rw [List.mem_map]
  rintro ⟨flag, -, hflag⟩
  have hchars := congrArg String.toList hflag
  cases flag <;> simp [Flag.argument] at hchars

/-- What is new is found, and everything else is found as before. -/
theorem Matches.find?_give (found : Matches) (id : String) (value : Value) (other : String) :
  (found.give id value).find? other
    = if other = id then some ⟨value, .commandLine⟩ else found.find? other
  := rfl

theorem Matches.isGiven_give_iff {id other : String} {value : Value} :
  (found.give id value).IsGiven other ↔ other = id ∨ found.IsGiven other
  := by
  simp only [IsGiven, find?_give]
  by_cases hother : other = id <;> simp [hother]

/-- An option that has not been given can be given behind what has been read. -/
theorem ArgumentParser.Implements.snoc (h : parser.Implements Options.declared)
    (hfile : file ≠ "") (hdirectory : directory ≠ "")
    (hfound : parser surroundings words = .ok found)
    (hopen : "--" ∉ words) {flag : Flag} (hnew : ¬ found.IsGiven flag.id) :
  parser surroundings (words ++ [flag.argument file directory])
    = .ok (found.give flag.id (flag.value file directory))
  := by
  have hmem := flag.declaration_mem
  cases flag with
  | file => exact h.option hfound hopen _ hmem "file" rfl rfl hnew file hfile
  | directory => exact h.option hfound hopen _ hmem "directory" rfl rfl hnew directory hdirectory
  | verbose => exact h.switch hfound hopen _ hmem "verbose" rfl rfl hnew
  | graph => exact h.switch hfound hopen _ hmem "graph" rfl rfl hnew

/-- What has been found when some options have been given. -/
structure Gives (file directory : String) (flags : List Flag) (found : Matches) : Prop where
  given : ∀ flag ∈ flags,
    found.find? flag.id = some ⟨flag.value file directory, .commandLine⟩
  other : ∀ argument ∈ Options.declared, found.IsGiven argument.id →
    ∃ flag ∈ flags, flag.id = argument.id

theorem Gives.not_isGiven {flag : Flag} (h : Gives file directory flags found)
    (hnew : flag ∉ flags) :
  ¬ found.IsGiven flag.id
  := by
  rw [← flag.id_declaration]
  intro hgiven
  obtain ⟨other, hmem, hid⟩ := h.other _ flag.declaration_mem hgiven
  exact hnew (Flag.id_injective (hid.trans flag.id_declaration) ▸ hmem)

theorem Gives.snoc {flag : Flag} (h : Gives file directory flags found) (hnew : flag ∉ flags) :
  Gives file directory (flags ++ [flag]) (found.give flag.id (flag.value file directory))
  where
  given := by
    intro other hother
    rcases List.mem_append.1 hother with hold | hlast
    · have hne : other.id ≠ flag.id := fun hid => hnew (Flag.id_injective hid ▸ hold)
      rw [Matches.find?_give, if_neg hne, h.given other hold]
    · rw [List.mem_singleton.1 hlast, Matches.find?_give, if_pos rfl]
  other := by
    intro argument hargument hgiven
    rcases Matches.isGiven_give_iff.1 hgiven with hid | hold
    · exact ⟨flag, List.mem_append_right _ List.mem_cons_self, hid.symm⟩
    · obtain ⟨other, hmem, hid⟩ := h.other argument hargument hold
      exact ⟨other, List.mem_append_left _ hmem, hid⟩

/-- What is found for an option is what has been given, or else what is declared. -/
theorem Gives.find?_eq (h : Gives file directory flags found)
    (himplements : parser.Implements Options.declared)
    (hfound : parser surroundings words = .ok found) (flag : Flag) :
  found.find? flag.id
    = if flag ∈ flags then some ⟨flag.value file directory, .commandLine⟩
      else flag.declaration.fallback surroundings
  := by
  split
  · next hmem => exact h.given flag hmem
  · next hnew =>
    have hnone := h.not_isGiven hnew
    rw [← flag.id_declaration] at hnone ⊢
    exact himplements.fallback hfound _ flag.declaration_mem hnone

/-- A switch is on if it is given. -/
theorem isOn_eq {flag : Flag} (hvalue : flag.value file directory = .switch true)
    (hswitch : flag.declaration.isSwitch = true)
    (hfind : found.find? flag.id
      = if flag ∈ flags then some ⟨flag.value file directory, .commandLine⟩
        else flag.declaration.fallback surroundings) :
  found.isOn flag.id = decide (flag ∈ flags)
  := by
  by_cases hmem : flag ∈ flags <;>
    simp [Matches.isOn, hfind, hmem, hvalue, Argument.fallback, hswitch]

/-- The text of an option is the one that is given, or that of the variable, or the default. -/
theorem text?_eq {flag : Flag} {text : String} (hvalue : flag.value file directory = .text text)
    (hswitch : flag.declaration.isSwitch = false)
    (hfind : found.find? flag.id
      = if flag ∈ flags then some ⟨flag.value file directory, .commandLine⟩
        else flag.declaration.fallback surroundings) :
  found.text? flag.id
    = if flag ∈ flags then some text
      else (flag.declaration.environment.bind surroundings).or flag.declaration.default
  := by
  by_cases hmem : flag ∈ flags
  · simp [Matches.text?, hfind, hmem, hvalue]
  · cases hset : flag.declaration.environment.bind surroundings <;>
      cases hdefault : flag.declaration.default <;>
      simp [Matches.text?, hfind, hmem, Argument.fallback, hswitch, hset, hdefault]

/-- No option gives a target. -/
theorem Gives.not_isGiven_target (h : Gives file directory flags found) :
  ¬ found.IsGiven "target"
  := by
  intro hgiven
  obtain ⟨flag, -, hid⟩ := h.other Options.declared[4] (List.getElem_mem _) hgiven
  revert hid
  cases flag <;> decide

/-- Options are read one after the other, and what they give does not depend on their order. -/
theorem ArgumentParser.Implements.exists_gives (h : parser.Implements Options.declared)
    (hfile : file ≠ "") (hdirectory : directory ≠ "") (surroundings : String → Option String)
    (hnodup : flags.Nodup) :
  ∃ found, parser surroundings (flags.map (·.argument file directory)) = .ok found ∧
    Gives file directory flags found
  := by
  induction flags using List.reverseRecOn with
  | nil =>
    obtain ⟨found, hfound, hnone⟩ := h.nothing (by decide) surroundings
    exact ⟨found, hfound, nofun, fun argument hmem hgiven => absurd hgiven (hnone argument hmem)⟩
  | append_singleton flags flag ih =>
    have hnew : flag ∉ flags := fun hmem =>
      List.disjoint_of_nodup_append hnodup hmem List.mem_cons_self
    obtain ⟨found, hfound, hgives⟩ := ih hnodup.of_append_left
    rw [List.map_append, List.map_singleton]
    exact ⟨_, h.snoc hfile hdirectory hfound (notMem_dashes file directory flags)
        (hgives.not_isGiven hnew),
      hgives.snoc hnew⟩

/-- A target behind the options is found, and the options are found as before. -/
theorem ArgumentParser.Implements.exists_target (h : parser.Implements Options.declared)
    {target : Option String} (htarget : target ≠ some "") (hopen : "--" ∉ words)
    (hfound : parser surroundings words = .ok found) (hnew : ¬ found.IsGiven "target") :
  ∃ found', parser surroundings (words ++ targetArguments target) = .ok found' ∧
    found'.text? "target" = target ∧ ∀ flag : Flag, found'.find? flag.id = found.find? flag.id
  := by
  cases target with
  | none =>
    refine ⟨found, by rwa [targetArguments, List.append_nil], ?_, fun _ => rfl⟩
    have hnone := h.fallback hfound Options.declared[4] (List.getElem_mem _) hnew
    change found.find? "target" = none at hnone
    simp only [Matches.text?, hnone]
  | some target =>
    have htext : target ≠ "" := fun hempty => htarget (congrArg some hempty)
    refine ⟨_, h.positional hfound hopen Options.declared[4] rfl rfl hnew target htext, rfl, ?_⟩
    intro flag
    cases flag <;> rfl

end

end CommandLine

open CommandLine

/-- Options that are given once at most, in any order, and a target after them are read by every
parser that implements the arguments of the program.  The build file and the directory have their
values from the command line, or else from the variables of the surroundings, or else the build file
has its default name and there is no directory; what is only on or off is on if it is given; and the
target is the one that is given. -/
theorem Options.parse_flags {parser : ArgumentParser} (h : parser.Implements Options.declared)
    (surroundings : String → Option String) {file directory : String} (hfile : file ≠ "")
    (hdirectory : directory ≠ "") {flags : List Flag} (hnodup : flags.Nodup)
    {target : Option String} (htarget : target ≠ some "") :
  Options.parse parser surroundings
      (flags.map (·.argument file directory) ++ targetArguments target)
    = .ok
      { file := if .file ∈ flags then file
          else (surroundings "TSUMIKI_FILE").getD "Tsumikifile"
        directory := if .directory ∈ flags then some directory
          else surroundings "TSUMIKI_DIRECTORY"
        verbose := .verbose ∈ flags
        graph := .graph ∈ flags
        target := target }
  := by
  obtain ⟨found, hfound, hgives⟩ := h.exists_gives hfile hdirectory surroundings hnodup
  obtain ⟨found', hfound', htext, hsame⟩ :=
    h.exists_target htarget (notMem_dashes file directory flags) hfound hgives.not_isGiven_target
  have hfind (flag : Flag) := (hsame flag).trans (hgives.find?_eq h hfound flag)
  have hfileFound : found'.text? "file"
      = some (if .file ∈ flags then file
          else (surroundings "TSUMIKI_FILE").getD "Tsumikifile") := by
    refine (text?_eq rfl rfl (hfind .file)).trans ?_
    split
    · rfl
    · exact Option.or_some
  have hdirectoryFound : found'.text? "directory"
      = if .directory ∈ flags then some directory else surroundings "TSUMIKI_DIRECTORY" :=
    (text?_eq rfl rfl (hfind .directory)).trans (by simp [Flag.declaration, declared])
  have hverboseFound : found'.isOn "verbose" = decide (.verbose ∈ flags) :=
    isOn_eq rfl rfl (hfind .verbose)
  have hgraphFound : found'.isOn "graph" = decide (.graph ∈ flags) :=
    isOn_eq rfl rfl (hfind .graph)
  simp only [parse, hfound', ofMatches, hfileFound, hdirectoryFound, hverboseFound, hgraphFound,
    htext]

/-- Values that look like options are values, and so is a target that looks like the end of the
options.  The name of the build file is that of the variable. -/
theorem Options.parse_flags_lookalike :
  let parser := Reading.parser Options.declared
  let surroundings (name : String) := if name = "TSUMIKI_FILE" then some "other" else none
  parser.Implements Options.declared ∧ [Flag.graph, .directory].Nodup ∧
    Options.parse parser surroundings ["--graph", "--directory=-C=x", "--", "--"]
      = .ok ⟨"other", some "-C=x", false, true, some "--"⟩
  := by
  intro parser surroundings
  have himplements : parser.Implements Options.declared :=
    Reading.parser_implements wellDeclared_declared
  have hnodup : [Flag.graph, .directory].Nodup := by decide
  have htarget : some "--" ≠ some "" := by decide
  have h := Options.parse_flags himplements surroundings (by decide : "x" ≠ "")
    (by decide : "-C=x" ≠ "") hnodup htarget
  refine ⟨himplements, hnodup, ?_⟩
  simpa [Flag.argument, targetArguments, surroundings] using h

end IncrementalBuild
