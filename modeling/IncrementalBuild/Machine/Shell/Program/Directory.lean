import IncrementalBuild.Machine.Shell.Program.Basic
import IncrementalBuild.Machine.Shell.Program.Numeral

/-!
# Making and removing directories

`mkdir` makes directories, with those on the way to them if it is told so, and `rmdir` removes
directories that are empty.
-/

namespace IncrementalBuild.Shell.Program

/-- The line that tells of a directory that has been made. -/
def creation (sh : Shell) (path : String) : String :=
  sh.called ++ ": created directory " ++ shown path

/-- The last name of a path, `.` if it ends with a slash. -/
def finalName (path : String) : String :=
  if path.endsWith "/" then "." else lastName path

/-- Makes the directories on the way to a path one in the other; the place of the last one, if all
of them are there afterwards. -/
def makeWay : Place → List String → Work → Option Place × Work
  | place, [], work => (some place, work)
  | place, path :: rest, work =>
    let name := finalName path
    let complaint := "cannot create directory " ++ shownAsText path
    match work.tree.makeDirectory place name with
    | (.ok (), tree) =>
      makeWay (name :: place) rest ((work.withTree tree).tell (creation work.shell path))
    | (.error e, _) =>
      match work.tree.directoryAt place name with
      | .ok below => makeWay below rest work
      | .error .notFound => (none, work.failFor complaint e)
      | .error reason => (none, work.failFor complaint reason)

/-- Makes a directory. -/
def makeOne (work : Work) (name : String) : Work :=
  match work.tree.makeDirectory work.here name with
  | (.ok (), tree) => (work.withTree tree).tell (creation work.shell name)
  | (.error e, _) => work.failFor ("cannot create directory " ++ shownAsText name) e

/-- Makes a directory and those on the way to it, unless they are there. -/
def makeWithWay (work : Work) (name : String) : Work :=
  let path := FileTree.withoutSlash name
  match makeWay (FileTree.origin work.here name) (FileTree.initials path).dropLast work with
  | (none, work) => work
  | (some place, work) =>
    match work.tree.makeDirectory place (finalName path) with
    | (.ok (), tree) => (work.withTree tree).tell (creation work.shell name)
    | (.error e, _) =>
      let failed := work.failFor ("cannot create directory " ++ shownAsText name) e
      match e, work.tree.entryAt place (finalName path) with
      | .fileExists, .ok (.directory _) => work
      | .fileExists, .error reason =>
        if reason.isAbsence then failed else work.failFor ("cannot stat " ++ shown name) reason
      | _, _ => failed

/-! ### Modes -/

/-- Whether a text is an octal number of at most twelve bits. -/
def isOctalMode (cs : List Char) : Bool :=
  !cs.isEmpty && cs.all isOctal
    && cs.foldl (fun total c => 8 * total + Decimal.digitValue c) 0 < 4096

/-- Whether a text is a list of changes to a mode, each of which is a sign with letters after
it.  With no letters in front of the changes, a change can be a number. -/
def areChanges (hasGroups : Bool) : (fuel : Nat) → List Char → Bool
  | 0, _ | _, [] => false
  | fuel + 1, sign :: cs =>
    let goesOn (rest : List Char) : Bool := rest.isEmpty || areChanges hasGroups fuel rest
    "+-=".toList.contains sign &&
      (match cs with
      | c :: rest =>
        if isOctal c then !hasGroups && isOctalMode cs
        else if "ugo".toList.contains c then goesOn rest
        else goesOn (cs.dropWhile "rwxXst".toList.contains)
      | [] => true)

/-- Whether a text states the mode of a file, by an octal number or by letters. -/
def isMode (text : String) : Bool :=
  if text.toList.head?.any isOctal then
    isOctalMode text.toList
  else
    (text.splitOn ",").all fun clause =>
      let isGroup := "ugoa".toList.contains
      areChanges (clause.toList.head?.any isGroup) (clause.length + 1)
        (clause.toList.dropWhile isGroup)

/-! ### Programs -/

/-- The warnings that a security context is ignored, where one is stated. -/
def contextWarnings (kernel : String) (call : Invocation) : List String :=
  (call.given.filter fun option => option.1 = "context" && option.2.isSome).map fun _ =>
    "warning: ignoring --context; it requires an " ++ kernel ++ "-enabled kernel"

/-- The options of `mkdir`. -/
def mkdirSwitches : List Switch :=
  [.of "context" ['Z'] ["context"] .optional, .of "m" ['m'] ["mode"] .required,
    .plain 'p' ["parents"], .plain 'v' ["verbose"]]

/-- Makes directories. -/
def mkdir : Program := withSwitches mkdirSwitches (contextWarnings "SELinux/SMACK") fun call sh =>
  if call.operands.isEmpty then
    misused "missing operand" sh
  else
    match (call.last? "m").filter (!isMode ·) with
    | some mode => failing ("invalid mode " ++ shownAsText mode) sh
    | none =>
      let make := if call.has "p" then makeWithWay else makeOne
      (call.operands.foldl make (.start (call.has "v") sh)).finish

/-- Removes empty directories. -/
def rmdir : Program := withSwitches [.plain 'v' ["verbose"]] noWarnings fun call sh =>
  if call.operands.isEmpty then
    misused "missing operand" sh
  else
    forEach call.operands (fun name sh =>
      report ("failed to remove " ++ shown name)
        (sh.machine.tree.removeDirectory sh.here name) sh) sh

end IncrementalBuild.Shell.Program
