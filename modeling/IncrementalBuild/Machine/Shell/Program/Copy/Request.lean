import IncrementalBuild.Machine.Shell.Program.Basic

/-!
# What is to be copied

The arguments of `cp` say how it copies, which is a `Copying`, and what it copies, which is a
`Request`: each source with its destination.  Sources that come before a directory are copied
into it, and keep their names there.
-/

namespace IncrementalBuild.Shell.Program

/-- Which links are followed: all, those that are operands, or none. -/
inductive Following
  | always
  | operands
  | never
deriving DecidableEq, Repr

/-- What happens to a file that is there already: it is overwritten, always or when the
answer to a question allows it, or left alone. -/
inductive Overwriting
  | always
  | asked
  | never
deriving DecidableEq, Repr

/-- What is put at a destination: a copy, another name of the same file, or a link. -/
inductive Product
  | copy
  | name
  | link
deriving DecidableEq, Repr

/-- How a file is named that is kept before it is replaced: with a suffix, with a number, or
with a number if another one has been kept in that way. -/
inductive Keeping
  | suffixed
  | numbered
  | asBefore
deriving DecidableEq, Repr

/-- What `cp` has been told.  `tracks` says that there are several sources, and `startsAnew`
that the destination is known not to be there. -/
structure Copying where
  product : Product
  recursive : Bool
  follows : Following
  overwrites : Overwriting
  onlyNewer : Bool
  replacesUnopened : Bool
  removesFirst : Bool
  keeps : Option Keeping
  suffix : String
  keepsAttributes : Bool
  keepsModes : Bool
  keepsTimes : Bool
  keepsNames : Bool
  copiesBytes : Bool
  copiesDevices : Bool
  sharesBytes : Bool
  tracks : Bool
  startsAnew : Bool
deriving DecidableEq, Repr

/-! ### Options -/

/-- The attributes that can be kept. -/
def attributes : List (List String) :=
  [["mode"], ["timestamps"], ["ownership"], ["links"], ["context"], ["xattr"], ["all"]]

/-- What a list of attributes names. -/
def attributesIn (option list : String) : Except Fault (List String) :=
  (list.splitOn ",").mapM (choice option attributes)

/-- Refuses an argument that is no list of attributes. -/
def checkAttributes (option : String) :
    List Given → (written : String) → Option String → Except Fault (Option String)
  | _, _, none => .ok none
  | _, _, some list => (attributesIn option list).map fun names => some (",".intercalate names)

/-- Refuses a second directory. -/
def checkSingle : List Given → (written : String) → Option String → Except Fault (Option String)
  | given, _, argument =>
    if given.any (·.1 = "t") then .error (.refusal "multiple target directories specified")
    else .ok argument

/-- The options of `cp`. -/
def cpSwitches : List Switch :=
  [.plain 'a' ["archive"], .long "attributes-only" .none, .of "backup" [] ["backup"] .optional,
    .long "copy-contents" .none, .plain 'L' ["dereference"], .plain 'f' ["force"],
    .plain 'i' ["interactive"], .plain 'l' ["link"], .plain 'n' ["no-clobber"],
    .plain 'P' ["no-dereference"],
    { Switch.long "no-preserve" .required with check := checkAttributes "--no-preserve" },
    .plain 'T' ["no-target-directory"], .plain 'x' ["one-file-system"],
    .of "parents" [] ["parents", "path"] .none,
    { Switch.long "preserve" .optional with check := checkAttributes "--preserve" },
    .of "r" ['r', 'R'] ["recursive"] .none, .long "remove-destination" .none,
    (Switch.long "sparse" .required).choosing [["never"], ["auto"], ["always"]],
    (Switch.long "reflink" .optional).choosing [["auto"], ["always"], ["never"]],
    .long "strip-trailing-slashes" .none, .of "S" ['S'] ["suffix"] .required,
    .plain 's' ["symbolic-link"],
    { Switch.of "t" ['t'] ["target-directory"] .required with check := checkSingle },
    .plain 'u' ["update"], .plain 'v' ["verbose"], .of "context" ['Z'] ["context"] .optional,
    .of "backup" ['b'] [] .none, .plain 'd' [], .plain 'H' [], .plain 'p' []]

/-- Whether an attribute is kept, given the options that say so; `short` are those that do
so by themselves. -/
def keepsAttribute (call : Invocation) (name : String) (short : List String) : Bool :=
  let names (list : String) : Bool :=
    (list.splitOn ",").any fun other => other = name || other = "all"
  call.given.foldl (fun keeps option =>
    match option with
    | ("preserve", some list) => keeps || names list
    | ("no-preserve", some list) => keeps && !names list
    | (key, _) => keeps || short.contains key) false

/-- Whether a security context is to be kept, whatever else is. -/
def keepsContext (call : Invocation) : Bool :=
  let names (list : String) : Bool := (list.splitOn ",").contains "context"
  call.given.foldl (fun keeps option =>
    match option with
    | ("preserve", some list) => keeps || names list
    | ("no-preserve", some list) => keeps && !names list
    | _ => keeps) false

/-- Which links are followed. -/
def followingOf (call : Invocation) : Following :=
  match call.latest? ["a", "d", "P", "L", "H"] with
  | some ("L", _) => .always
  | some ("H", _) => .operands
  | some _ => .never
  | none => if (call.has "r" || call.has "a") && !call.has "l" then .never else .always

/-- How files are named that are kept.  `environment` gives the value of a variable, which
counts where the options say nothing. -/
def keepingOf (call : Invocation) (environment : String → Option String) :
    Except Fault (Option Keeping) :=
  let types := [["none", "off"], ["simple", "never"], ["existing", "nil"], ["numbered", "t"]]
  let keepingNamed (about word : String) : Except Fault (Option Keeping) := do
    match ← choice about types word with
    | "none" => return none
    | "simple" => return some .suffixed
    | "existing" => return some .asBefore
    | _ => return some .numbered
  let stated := (call.given.filterMap fun option =>
    if option.1 = "backup" then option.2 else none).getLast?
  if !(call.has "backup" || call.has "S") then .ok none
  else
    match stated.filter (· ≠ ""), (environment "VERSION_CONTROL").filter (· ≠ "") with
    | some word, _ => keepingNamed "backup type" word
    | none, some word => keepingNamed "$VERSION_CONTROL" word
    | none, none => .ok (some .asBefore)

/-- The suffix of files that are kept; one that holds a slash is not used. -/
def suffixOf (call : Invocation) (environment : String → Option String) : String :=
  let stated := ((call.last? "S").or (environment "SIMPLE_BACKUP_SUFFIX")).getD ""
  if stated = "" || (FileTree.withoutSlash stated).toList.contains '/' then "~" else stated

/-- What `cp` is told by its options. -/
def Copying.ofOptions (call : Invocation) (environment : String → Option String) :
    Except Fault Copying := do
  let sharesBytes := (call.latest? ["reflink"]).any fun option => option.2.getD "always" = "always"
  let overwrites : Overwriting :=
    match call.latest? ["i", "n"] with
    | some ("i", _) => .asked
    | some _ => .never
    | none => .always
  if sharesBytes && (call.last? "sparse").getD "auto" ≠ "auto" then
    .error (.misuse "--reflink can be used only with --sparse=auto")
  if call.has "l" && call.has "s" then
    .error (.misuse "cannot make both hard and symbolic links")
  if (call.has "backup" || call.has "S") && overwrites = .never then
    .error (.misuse "options --backup and --no-clobber are mutually exclusive")
  let keeps ← keepingOf call environment
  if keepsContext call then
    .error (.refusal "cannot preserve security context without an SELinux-enabled kernel")
  let recursive := call.has "r" || call.has "a"
  return {
    product := if call.has "s" then .link else if call.has "l" then .name else .copy
    recursive := recursive
    follows := followingOf call
    overwrites := overwrites
    onlyNewer := call.has "u" && overwrites ≠ .never
    replacesUnopened := call.has "f"
    removesFirst := call.has "remove-destination"
    keeps := keeps
    suffix := suffixOf call environment
    keepsAttributes :=
      ["mode", "timestamps", "ownership"].any
        (keepsAttribute call · ["a", "p", "preserve"])
    keepsModes := keepsAttribute call "mode" ["a", "p", "preserve"]
    keepsTimes := keepsAttribute call "timestamps" ["a", "p", "preserve"]
    keepsNames := keepsAttribute call "links" ["a", "d"]
    copiesBytes := !call.has "attributes-only"
    copiesDevices := !recursive || call.has "copy-contents"
    sharesBytes := sharesBytes
    tracks := false
    startsAnew := false }

/-! ### Operands -/

/-- What the operands of `cp` ask for: each source with its destination. -/
structure Request where
  into : Option (String × Place)
  startsAnew : Bool
  pairs : List (String × String)

/-- The path that a source gets in a directory. -/
def pathInto (directory source : String) : String :=
  let name := lastName source
  inDirectory directory (if name = ".." then "." else name)

/-- The path of a source in a directory that keeps the whole of its own path. -/
def wholePathInto (directory source : String) : String :=
  inDirectory directory (String.ofList (source.toList.dropWhile (· = '/')))

/-- What the operands of `cp` ask for. -/
def Request.ofOperands (sh : Shell) (call : Invocation) : Except Fault Request :=
  let tree := sh.machine.tree
  let path := if call.has "parents" then wholePathInto else pathInto
  let trimmed (source : String) : String :=
    if call.has "strip-trailing-slashes" then FileTree.withoutSlash source else source
  let into (directory : String) (place : Place) (sources : List String) : Request :=
    ⟨some (directory, place), false,
      sources.map fun source => (trimmed source, path directory source)⟩
  let single (source target : String) (startsAnew : Bool) : Except Fault Request :=
    if call.has "parents" then
      .error (.misuse "with --parents, the destination must be a directory")
    else
      .ok ⟨none, startsAnew, [(source, target)]⟩
  match call.operands, call.last? "t" with
  | [], _ => .error (.misuse "missing file operand")
  | [name], none => .error (.misuse ("missing destination file operand after " ++ shown name))
  | operands, some directory =>
    if call.has "T" then
      .error (.refusal "cannot combine --target-directory (-t) and --no-target-directory (-T)")
    else
      match tree.directoryAt sh.here directory with
      | .error e => .error (.refusal ("target directory " ++ shown directory ++ ": " ++ e.reason))
      | .ok place => .ok (into directory place operands)
  | source :: second :: others, none =>
    let target := (second :: others).getLastD ""
    if call.has "T" then
      match others with
      | extra :: _ => .error (.misuse ("extra operand " ++ shown extra))
      | [] => single source second false
    else
      match tree.directoryAt sh.here target, others with
      | .ok place, _ => .ok (into target place call.operands.dropLast)
      | .error e, [] => single source second (e = .notFound)
      | .error e, _ => .error (.refusal ("target " ++ shown target ++ ": " ++ e.reason))

end IncrementalBuild.Shell.Program
