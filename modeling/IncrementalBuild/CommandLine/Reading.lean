import IncrementalBuild.CommandLine.Argument

/-!
# Reading a command line

`Reading.parser` is a parser of arguments.  A word `--name` or `--name=value` is a long
option; one dash and letters are a cluster of short options, of which one that takes a value
takes the rest of the cluster, without a leading equals sign; after `--` nothing is an
option.  Any other word is the value of the option before it, if that option still awaits
one, or else the argument that is no option.

A value that stands in a word of its own is taken down (`pending`) and becomes effective
only when the next argument is met, or at the end.  So of two errors the earlier is not
always the one reported: an unknown argument is reported in preference to what is wrong with
a value that is not yet effective.
-/

namespace IncrementalBuild.CommandLine

/-- The things a word can be about. -/
inductive Subject
  | declared (argument : Argument)
  | help
  | version
deriving DecidableEq, Repr

/-- An option that takes a value. -/
def Subject.takesValue : Subject → Bool
  | .declared argument => !argument.isSwitch
  | .help | .version => false

/-- The value of an argument: a switch is put on, anything else needs a text. -/
def Argument.valueOf? (argument : Argument) (value : Option String) : Option Value :=
  if argument.isSwitch then some (.switch true) else value.map .text

/-- What has been given effectively. -/
abbrev Given : Type :=
  List (String × Value)

/-- Makes an argument effective.  Nothing can be given twice. -/
def Given.accept (given : Given) (subject : Subject) (value : Option String) :
    Except UsageError Given :=
  match subject with
  | .help => .error .displayHelp
  | .version => .error .displayVersion
  | .declared argument =>
    match argument.valueOf? value with
    | none => .error .invalidValue
    | some value =>
      if (given.lookup argument.id).isSome then .error .argumentConflict
      else .ok ((argument.id, value) :: given)

/-- The reading of words under way: what has been given effectively, and what has been
taken down. -/
structure Reading where
  given : Given
  pending : Option (Subject × Option String)
deriving DecidableEq, Repr

namespace Reading

/-- No word has been read. -/
def start : Reading :=
  ⟨[], none⟩

/-- Makes effective what has been taken down. -/
def settle (reading : Reading) : Except UsageError Reading :=
  match reading.pending with
  | none => .ok reading
  | some (subject, value) =>
    match reading.given.accept subject value with
    | .error e => .error e
    | .ok given => .ok ⟨given, none⟩

/-- Makes effective what has been taken down, and then an argument. -/
def apply (reading : Reading) (subject : Subject) (value : Option String) :
    Except UsageError Reading :=
  match reading.settle with
  | .error e => .error e
  | .ok reading =>
    match reading.given.accept subject value with
    | .error e => .error e
    | .ok given => .ok { reading with given := given }

/-- Makes effective what has been taken down, and takes down an argument. -/
def takeDown (reading : Reading) (subject : Subject) (value : Option String) :
    Except UsageError Reading :=
  match reading.settle with
  | .error e => .error e
  | .ok reading => .ok { reading with pending := some (subject, value) }

/-- The option that awaits its value. -/
def awaiting? (reading : Reading) : Option Subject :=
  match reading.pending with
  | some (subject, none) => some subject
  | _ => none

/-- The argument has been given, or has been taken down. -/
def holds (reading : Reading) (id : String) : Bool :=
  (reading.given.lookup id).isSome ||
    match reading.pending with
    | some (.declared argument, _) => argument.id = id
    | _ => false

section

variable (declared : List Argument)

/-- What a long name stands for. -/
def ofLong? (name : String) : Option Subject :=
  match declared.find? (·.long = some name) with
  | some argument => some (.declared argument)
  | none =>
    match name with
    | "help" => some .help
    | "version" => some .version
    | _ => none

/-- What a letter stands for. -/
def ofShort? (letter : Char) : Option Subject :=
  match declared.find? (·.short = some letter) with
  | some argument => some (.declared argument)
  | none =>
    match letter with
    | 'h' => some .help
    | 'V' => some .version
    | _ => none

/-- Reads a long option. -/
def readLong (reading : Reading) (name : String) (value : Option String) :
    Except UsageError Reading :=
  match ofLong? declared name, value with
  | none, _ => .error .unknownArgument
  | some subject, none =>
    if subject.takesValue then reading.takeDown subject none else reading.apply subject none
  | some subject, some value =>
    if subject.takesValue then reading.apply subject (some value) else .error .tooManyValues

/-- The value that follows the letter of an option in a cluster. -/
def attached : List Char → String
  | '=' :: cs => String.ofList cs
  | cs => String.ofList cs

/-- Reads a cluster of short options. -/
def readCluster : Reading → List Char → Except UsageError Reading
  | reading, [] => .ok reading
  | reading, c :: cs =>
    match ofShort? declared c with
    | none => .error .unknownArgument
    | some subject =>
      if subject.takesValue then
        if cs.isEmpty then reading.takeDown subject none
        else reading.apply subject (some (attached cs))
      else
        match reading.apply subject none with
        | .error e => .error e
        | .ok reading => readCluster reading cs

/-- Reads the value of the argument that is no option; it has only one. -/
def readPositional (reading : Reading) (value : String) : Except UsageError Reading :=
  match declared.find? (·.isPositional) with
  | none => .error .unknownArgument
  | some argument =>
    if reading.holds argument.id then .error .unknownArgument
    else reading.takeDown (.declared argument) (some value)

/-- Reads a word that is not an option: the value that is awaited, or that of the argument
that is no option. -/
def readPlain (reading : Reading) (word : String) : Except UsageError Reading :=
  match reading.awaiting? with
  | some subject => .ok { reading with pending := some (subject, some word) }
  | none => reading.readPositional declared word

/-- Reads a word to which options are open. -/
def readWord (reading : Reading) (word : String) : Except UsageError Reading :=
  match word.toList with
  | '-' :: '-' :: cs =>
    let name := String.ofList (cs.takeWhile (· ≠ '='))
    match cs.dropWhile (· ≠ '=') with
    | [] => reading.readLong declared name none
    | _ :: value => reading.readLong declared name (some (String.ofList value))
  | '-' :: c :: cs => readCluster declared reading (c :: cs)
  | _ => reading.readPlain declared word

/-- Reads words after `--`. -/
def readPositionals : Reading → List String → Except UsageError Reading
  | reading, [] => .ok reading
  | reading, word :: rest =>
    match reading.readPositional declared word with
    | .error e => .error e
    | .ok reading => readPositionals reading rest

/-- Reads words from the first to the last. -/
def readWords : Reading → List String → Except UsageError Reading
  | reading, [] => .ok reading
  | reading, word :: rest =>
    if word = "--" then
      readPositionals declared reading rest
    else
      match reading.readWord declared word with
      | .error e => .error e
      | .ok reading => readWords reading rest

/-- What has been found when some arguments have been given. -/
def Given.found (given : Given) (surroundings : String → Option String) : Matches where
  find? id :=
    match given.lookup id with
    | some value => some ⟨value, .commandLine⟩
    | none => (declared.find? (·.id = id)).bind (·.fallback surroundings)

/-- Parses the words of a command line. -/
def parser : ArgumentParser := fun surroundings words =>
  match start.readWords declared words with
  | .error e => .error e
  | .ok reading =>
    match reading.settle with
    | .error e => .error e
    | .ok reading =>
      let found := Given.found declared reading.given surroundings
      if declared.any fun argument => argument.isRequired && (found.find? argument.id).isNone then
        .error .missingArgument
      else
        .ok found

end

end Reading

end IncrementalBuild.CommandLine
