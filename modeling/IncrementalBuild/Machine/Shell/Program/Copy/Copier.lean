import IncrementalBuild.Machine.Shell.Program.Copy.Keeping

/-!
# Copying single files

A `Copier` is the work of `cp` so far.  It puts a copy of a file at a destination, or another
name of the file, or a link.  A link that leads nowhere is not written through.
-/

namespace IncrementalBuild.Shell.Program

/-- The work of `cp` so far: the directory that everything is copied into, if there is one,
by its path and its place; the names of the operands; what destinations they got; for what
must not be copied again, the path it has been copied to; whether the directory that the
current operand is copied into has only just been made; and whether the operand has led to the
making of a directory or into itself. -/
structure Copier where
  work : Work
  into : Option (String × Place)
  sources : List Place
  made : List (Place × Found)
  copied : List (Found × String)
  parentIsNew : Bool
  madeFirst : Bool
  entersItself : Bool

namespace Copier

/-- The name of a source. -/
def sourceName? (copier : Copier) (path : String) : Option Place :=
  nameOf? copier.work.tree copier.work.here path

/-- The path of a destination from the directory that everything is copied into. -/
def pathInside (copier : Copier) (path : String) : String :=
  match copier.into with
  | none => path
  | some (directory, _) =>
    String.ofList (path.toList.drop (inDirectory directory "").length)

/-- The name of a destination, seen from the directory that everything is copied into. -/
def targetName? (copier : Copier) (path : String) : Option Place :=
  let start := (copier.into.map (·.2)).getD copier.work.here
  nameOf? copier.work.tree start (copier.pathInside path)

/-- The shell. -/
def shell (copier : Copier) : Shell :=
  copier.work.shell

/-- Work that has changed the shell. -/
def withShell (copier : Copier) (sh : Shell) : Copier :=
  { copier with work := { copier.work with shell := sh } }

/-- Work after a change of the file tree. -/
def withTree (copier : Copier) (tree : FileTree) : Copier :=
  { copier with work := copier.work.withTree tree }

/-- Work that tells of something in a line. -/
def tell (copier : Copier) (line : String) : Copier :=
  { copier with work := copier.work.tell line }

/-- Work with an error message. -/
def warn (copier : Copier) (message : String) : Copier :=
  { copier with work := copier.work.warn message }

/-- Work that has failed with one file. -/
def fail (copier : Copier) (message : String) : Bool × Copier :=
  (false, copier.warn message)

/-- Work that has failed with one file, for a reason. -/
def failFor (copier : Copier) (message : String) (e : SystemError) : Bool × Copier :=
  copier.fail (message ++ ": " ++ e.reason)

/-- Removes what a path names. -/
def remove (copier : Copier) (path : String) : Except SystemError Copier :=
  match copier.work.tree.remove copier.shell.here path with
  | (.ok (), tree) => .ok ((copier.withTree tree).tell ("removed " ++ shown path))
  | (.error .notFound, _) => .ok copier
  | (.error e, _) => .error e

/-- Gives what a path leads to, or, without following a link at its end, what it names, the time
of something else. -/
def keepTime (copier : Copier) (follow : Bool) (origin : Found) (path : String) : Copier :=
  let tree := copier.work.tree
  copier.withTree (tree.setTime follow copier.shell.here path (tree.modifiedOf origin.entry)).2

/-- Where something has been copied to before. -/
def earlier? (copier : Copier) (origin : Found) : Option String :=
  (copier.copied.find? fun other => other.1.isSame origin).map (·.2)

/-- Work that remembers where something is copied to, unless it has been copied before. -/
def remember (copier : Copier) (origin : Found) (target : String) : Copier :=
  if (copier.earlier? origin).isSome then copier
  else { copier with copied := (origin, target) :: copier.copied }

/-- Work that has not copied something. -/
def forget (copier : Copier) (origin : Found) : Copier :=
  { copier with copied := copier.copied.filter fun other => !other.1.isSame origin }

end Copier

/-! ### Opening the destination -/

/-- Opens a new file at a destination; on an error, what is wrong with it. -/
def openNew (sh : Shell) (target : String) : Except String Nat × Shell :=
  let tree := sh.machine.tree
  let fault (e : SystemError) : Except String Nat :=
    .error ("cannot create regular file " ++ shown target ++ ": " ++ e.reason)
  match tree.locate sh.here target with
  | .error e => (fault e, sh)
  | .ok (_, some (.link ..)) =>
    if target.endsWith "/" then (fault .notADirectory, sh)
    else (.error ("not writing through dangling symlink " ++ shown target), sh)
  | .ok (_, some _) => (fault .fileExists, sh)
  | .ok (_, none) =>
    match sh.openPath .into target with
    | (.ok number, sh) => (.ok number, sh)
    | (.error e, sh) => (fault (if e = .isADirectory then .notADirectory else e), sh)

/-- Opens a destination that is there for writing.  The flag says whether it is new. -/
def Copying.openOld (copying : Copying) (target : String) (copier : Copier) :
    Except String (Nat × Bool) × Copier :=
  match copier.shell.openPath (if copying.copiesBytes then .into else .onto) target with
  | (.ok number, sh) => (.ok (number, false), copier.withShell sh)
  | (.error e, _) =>
    if copying.replacesUnopened then
      match copier.remove target with
      | .error e => (.error ("cannot remove " ++ shown target ++ ": " ++ e.reason), copier)
      | .ok copier =>
        let (result, sh) := openNew copier.shell target
        (result.map (·, true), copier.withShell sh)
    else
      (.error ("cannot create regular file " ++ shown target ++ ": " ++ e.reason), copier)

/-! ### Files and links -/

/-- Copies the bytes of a file.  That two files share them is not provided for, and a file that
has been made for it is removed. -/
def Copying.copyFile (copying : Copying) (isNew : Bool) (source target : String)
    (origin : Found) (copier : Copier) : Bool × Copier :=
  match copier.shell.openPath .outOf source with
  | (.error e, _) => copier.failFor ("cannot open " ++ shown source ++ " for reading") e
  | (.ok input, sh) =>
    let copier := copier.withShell sh
    let (opened, copier) :=
      if isNew then
        let (result, sh) := openNew sh target
        (result.map (·, true), copier.withShell sh)
      else
        copying.openOld target copier
    match opened with
    | .error message => copier.fail message
    | .ok (output, isMade) =>
      if copying.sharesBytes && copying.copiesBytes then
        let tree := copier.work.tree
        let tree := if isMade then (tree.remove copier.shell.here target).2 else tree
        (copier.withTree tree).failFor
          ("failed to clone " ++ shown target ++ " from " ++ shown source) .notSupported
      else
        match copier.shell.readFile input with
        | (.error e, sh) =>
          (copier.withShell sh).failFor ("error reading " ++ shown source) e
        | (.ok bytes, sh) =>
          let bytes := if copying.copiesBytes then bytes else .empty
          let written := if bytes.isEmpty then (.ok (), sh) else sh.writeFile output bytes
          match written with
          | (.error e, sh) =>
            (copier.withShell sh).failFor ("error writing " ++ shown target) e
          | (.ok (), sh) =>
            let copier := copier.withShell sh
            (true, if copying.keepsTimes then copier.keepTime true origin target else copier)

/-- Makes a link at a destination, instead of what is there if that may be replaced. -/
def Copying.makeLink (copying : Copying) (text target complaint : String) (copier : Copier) :
    Bool × Copier :=
  let tree := copier.work.tree
  let here := copier.shell.here
  match tree.makeLink here target text with
  | (.ok (), tree) => (true, copier.withTree tree)
  | (.error .fileExists, _) =>
    if copying.replacesUnopened then
      match (tree.remove here target).2.makeLink here target text with
      | (.ok (), tree) => (true, copier.withTree tree)
      | (.error e, _) => copier.failFor complaint e
    else
      copier.failFor complaint .fileExists
  | (.error e, _) => copier.failFor complaint e

/-- Gives an entry another name, instead of what is there if that may be replaced. -/
def Copier.makeName (copier : Copier) (replaces : Bool) (source target : String)
    (entry : Entry) : Bool × Copier :=
  let tree := copier.work.tree
  let complaint := "cannot create hard link " ++ shown target ++ " to " ++ shown source
  match tree.resolve false copier.shell.here target with
  | .error e => copier.failFor complaint e
  | .ok (place, none) => (true, copier.withTree (tree.put place entry))
  | .ok (place, some _) =>
    if replaces then (true, copier.withTree (tree.put place entry))
    else copier.failFor complaint .fileExists

/-- Gives the copy of something a second name, as the thing itself has one. -/
def Copier.copyName (copier : Copier) (earlier target : String) : Bool × Copier :=
  match find copier.shell false earlier with
  | .error e =>
    copier.failFor ("cannot create hard link " ++ shown target ++ " to " ++ shown earlier) e
  | .ok found =>
    let isThere := (find copier.shell false target).isOk
    match copier.makeName true earlier target found.entry with
    | (true, copier) =>
      (true, if isThere then copier.tell ("removed " ++ shown target) else copier)
    | failed => failed

/-- Puts a link with the path of a source at a destination.  A path that is not absolute
means the same only in the directory of the shell. -/
def Copying.linkTo (copying : Copying) (source target : String) (copier : Copier) :
    Bool × Copier :=
  let isHere : Bool :=
    match copier.work.tree.directoryAt copier.shell.here (directoryOf target) with
    | .error _ => true
    | .ok place => place = copier.shell.here
  if !Path.isAbsolute source && !isHere then
    copier.fail
      (shownIfNeeded target ++ ": can make relative symbolic links only in current directory")
  else
    copying.makeLink source target
      ("cannot create symbolic link " ++ shown target ++ " to " ++ shown source) copier

/-- Puts a device at a destination. -/
def Copier.makeDevice (copier : Copier) (target : String) (device : Device) : Bool × Copier :=
  let tree := copier.work.tree
  let fail := copier.failFor ("cannot create special file " ++ shown target)
  match tree.resolve false copier.shell.here target with
  | .error e => fail e
  | .ok (_, some _) => fail .fileExists
  | .ok (place, none) => (true, copier.withTree (tree.put place (.device device tree.now)))

/-- Puts something that is not a directory at a destination. -/
def Copying.copyLeaf (copying : Copying) (isNew : Bool) (source target : String)
    (origin : Found) (copier : Copier) : Bool × Copier :=
  let withTime (outcome : Bool × Copier) : Bool × Copier :=
    match outcome with
    | (true, copier) =>
      (true, if copying.keepsTimes then copier.keepTime false origin target else copier)
    | failed => failed
  match copying.product, origin.entry with
  | .link, _ => withTime (copying.linkTo source target copier)
  | .name, entry =>
    copier.makeName (copying.replacesUnopened || copying.overwrites = .asked) source target entry
  | .copy, .link text _ =>
    withTime
      (copying.makeLink text target ("cannot create symbolic link " ++ shown target) copier)
  | .copy, .device device _ =>
    if copying.copiesDevices then copying.copyFile isNew source target origin copier
    else withTime (copier.makeDevice target device)
  | .copy, _ => copying.copyFile isNew source target origin copier

/-- Keeps the file that is at a destination; the path it is kept under, if it is there to be
kept.  A file that is kept with a suffix alone moves to the directory of the shell: the path
that it has inside the directory that everything is copied into is read from there. -/
def Copying.keep (copying : Copying) (keeping : Keeping) (source target : String)
    (origin : Found) (copier : Copier) : Except String (Option String) × Copier :=
  if keeping ≠ .numbered && copying.isKeptAlready copier.shell source target origin then
    (.error ("backing up " ++ shown target ++ " might destroy source;  " ++ shown source
      ++ " not copied"), copier)
  else
    let kept := copying.keptPath keeping copier.shell target
    let path := if keeping = .suffixed then copier.pathInside kept else kept
    match copier.work.tree.rename copier.shell.here target path with
    | (.ok (), tree) => (.ok (some kept), copier.withTree tree)
    | (.error .notFound, _) => (.ok none, copier)
    | (.error e, _) => (.error ("cannot backup " ++ shown target ++ ": " ++ e.reason), copier)

/-- Puts the file that has been kept back where it was. -/
def Copier.restore (copier : Copier) (kept target : String) : Copier :=
  match copier.work.tree.rename copier.shell.here kept target with
  | (.ok (), tree) =>
    (copier.withTree tree).tell (shown kept ++ " -> " ++ shown target ++ " (unbackup)")
  | (.error e, _) => copier.warn ("cannot un-backup " ++ shown target ++ ": " ++ e.reason)

end IncrementalBuild.Shell.Program
