/-!
# The arguments of a program

A program declares its arguments, and an `Argument` is what is declared of one.  An
`ArgumentParser` is given the words of a command line and the variables of the surroundings, and
says what it has found for each argument, or why the words are refused.  It is not part of the
program.  `ArgumentParser.Implements` says what is asked of it.
-/

namespace IncrementalBuild

/-- The reason for which the arguments ask for no build.  Asking for help or for the
version is such a reason. -/
inductive UsageError
  | unknownArgument
  | invalidValue
  | argumentConflict
  | tooManyValues
  | missingArgument
  | displayHelp
  | displayVersion
deriving DecidableEq, Repr

/-- The exit code of the program. -/
def UsageError.exitCode : UsageError → Nat
  | displayHelp | displayVersion => 0
  | unknownArgument | invalidValue | argumentConflict | tooManyValues | missingArgument => 2

namespace CommandLine

/-- An argument as it is declared.  It is an option if it has a letter or a long name, and
otherwise it is known by its place.  A switch is given without a value.  If the argument is
not given, its value is that of a variable, and if this is not set either, a default. -/
structure Argument where
  id : String
  short : Option Char := none
  long : Option String := none
  isSwitch : Bool := false
  environment : Option String := none
  default : Option String := none
  isRequired : Bool := false
deriving DecidableEq, Repr

/-- The argument is no option. -/
def Argument.isPositional (argument : Argument) : Bool :=
  argument.short.isNone && argument.long.isNone

/-- What an argument is: a text, or on or off. -/
inductive Value
  | text (value : String)
  | switch (on : Bool)
deriving DecidableEq, Repr

/-- Where a value comes from. -/
inductive Source
  | commandLine
  | environment
  | default
deriving DecidableEq, Repr

/-- A value that has been found, and where it comes from. -/
structure Match where
  value : Value
  source : Source
deriving DecidableEq, Repr

/-- What has been found for the arguments. -/
@[ext]
structure Matches where
  find? : String → Option Match

namespace Matches

/-- The text that has been found. -/
def text? (found : Matches) (id : String) : Option String :=
  match found.find? id with
  | some ⟨.text value, _⟩ => some value
  | _ => none

/-- The switch is on. -/
def isOn (found : Matches) (id : String) : Bool :=
  match found.find? id with
  | some ⟨.switch on, _⟩ => on
  | _ => false

/-- The argument has been given on the command line. -/
def IsGiven (found : Matches) (id : String) : Prop :=
  ∃ value, found.find? id = some ⟨value, .commandLine⟩

/-- The argument is given on the command line, beside what has been found. -/
def give (found : Matches) (id : String) (value : Value) : Matches where
  find? other := if other = id then some ⟨value, .commandLine⟩ else found.find? other

end Matches

/-- What is found for an argument that is not given. -/
def Argument.fallback (argument : Argument) (surroundings : String → Option String) :
    Option Match :=
  if argument.isSwitch then
    some ⟨.switch false, .default⟩
  else
    match argument.environment.bind surroundings with
    | some value => some ⟨.text value, .environment⟩
    | none => argument.default.map fun value => ⟨.text value, .default⟩

/-- Finds the arguments of a program in the words of a command line. -/
abbrev ArgumentParser : Type :=
  (surroundings : String → Option String) → (words : List String) → Except UsageError Matches

/-- A parser does what is declared of the arguments.  If it accepts a command line on which nothing
ends the options and an argument is not given, then it also accepts the command line with this
argument behind it, and finds nothing else that is new. -/
structure ArgumentParser.Implements (parser : ArgumentParser) (declared : List Argument) :
    Prop where
  /-- If no argument is required, none need be given. -/
  nothing : (∀ argument ∈ declared, argument.isRequired = false) → ∀ surroundings,
    ∃ found, parser surroundings [] = .ok found ∧
      ∀ argument ∈ declared, ¬ found.IsGiven argument.id
  /-- What is not given has the value of its variable, or else its default. -/
  fallback : ∀ {surroundings words found}, parser surroundings words = .ok found →
    ∀ argument ∈ declared, ¬ found.IsGiven argument.id →
      found.find? argument.id = argument.fallback surroundings
  /-- The value of a long option is all that is behind the equals sign. -/
  option : ∀ {surroundings words found}, parser surroundings words = .ok found → "--" ∉ words →
    ∀ argument ∈ declared, ∀ long ∈ argument.long, argument.isSwitch = false →
      ¬ found.IsGiven argument.id → ∀ value, value ≠ "" →
        parser surroundings (words ++ ["--" ++ long ++ "=" ++ value])
          = .ok (found.give argument.id (.text value))
  /-- A long switch is put on. -/
  switch : ∀ {surroundings words found}, parser surroundings words = .ok found → "--" ∉ words →
    ∀ argument ∈ declared, ∀ long ∈ argument.long, argument.isSwitch = true →
      ¬ found.IsGiven argument.id →
        parser surroundings (words ++ ["--" ++ long])
          = .ok (found.give argument.id (.switch true))
  /-- Behind two dashes, a word is the value of the argument that is no option, whatever it looks
  like. -/
  positional : ∀ {surroundings words found}, parser surroundings words = .ok found → "--" ∉ words →
    ∀ argument, declared.filter (·.isPositional) = [argument] → argument.isSwitch = false →
      ¬ found.IsGiven argument.id → ∀ value, value ≠ "" →
        parser surroundings (words ++ ["--", value])
          = .ok (found.give argument.id (.text value))

end CommandLine

end IncrementalBuild
