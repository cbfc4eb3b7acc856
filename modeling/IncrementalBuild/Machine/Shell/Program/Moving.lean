import IncrementalBuild.Machine.Shell.Program.Basic

/-!
# Moving and linking files

`mv` gives files and directories other names, and `ln` gives files more names, or makes links
to them.
-/

namespace IncrementalBuild.Shell.Program

/-- The path that a file moved or linked to a path gets: in a directory it keeps its
name. -/
def destination (sh : Shell) (source target : String) : String :=
  if sh.machine.tree.isDirectory sh.here target then inDirectory target (lastName source)
  else target

/-- Moves one file or directory. -/
def moveFile (source target : String) (sh : Shell) : Bool × Shell :=
  let tree := sh.machine.tree
  let target := destination sh source target
  match tree.locate sh.here source, tree.locate sh.here target with
  | .ok (place, some entry), .ok (other, there) =>
    let clash := there.any fun there => entry.isDirectory != there.isDirectory
    if place = other then
      (false,
        sh.warn (shown source ++ " and " ++ shown target ++ " are the same file"))
    else if place.isSuffixOf other then
      (false,
        sh.warn ("cannot move " ++ shown source ++ " to a subdirectory of itself, "
          ++ shown target))
    else if clash then
      (false, sh.warn ("cannot overwrite " ++ shown target))
    else
      (true, sh.withTree (tree.moveAt place other))
  | .ok (_, none), _ =>
    (false,
      sh.warn ("cannot stat " ++ shown source ++ ": " ++ SystemError.notFound.reason))
  | .error e, _ =>
    (false, sh.warn ("cannot stat " ++ shown source ++ ": " ++ e.reason))
  | _, .error e =>
    (false,
      sh.warn ("cannot move " ++ shown source ++ " to " ++ shown target ++ ": "
        ++ e.reason))

/-- Moves files, the last operand being the destination. -/
def mv : Program :=
  withSwitches [.plain 'f' ["force"], .plain 'v' ["verbose"]] noWarnings fun call sh =>
    match call.operands.reverse with
    | [] => misused "missing file operand" sh
    | [name] => misused ("missing destination file operand after " ++ shown name) sh
    | [target, source] => forEach [source] (moveFile · target) sh
    | target :: sources =>
      match sh.machine.tree.directoryAt sh.here target with
      | .error e => failing ("target " ++ shown target ++ ": " ++ e.reason) sh
      | .ok _ => forEach sources.reverse (moveFile · target) sh

/-- Makes a link, symbolic or not. -/
def linkFile (symbolic force : Bool) (source target : String) (sh : Shell) : Bool × Shell :=
  let target := destination sh source target
  let tree :=
    if force then (sh.machine.tree.remove sh.here target).2 else sh.machine.tree
  if symbolic then
    report ("failed to create symbolic link " ++ shown target)
      (tree.makeLink sh.here target source) sh
  else
    match tree.linkEntryAt sh.here source, tree.resolve false sh.here target with
    | .error e, _ =>
      (false, sh.warn ("failed to access " ++ shown source ++ ": " ++ e.reason))
    | .ok (.directory _), _ =>
      (false,
        sh.warn (shownIfNeeded source ++ ": hard link not allowed for directory"))
    | .ok entry, .ok (place, none) => (true, sh.withTree (tree.put place entry))
    | .ok _, .ok (_, some _) =>
      report ("failed to create hard link " ++ shown target) (.error .fileExists, tree) sh
    | .ok _, .error e =>
      report ("failed to create hard link " ++ shown target) (.error e, tree) sh

/-- Makes links to files. -/
def ln : Program :=
  withSwitches
    [.plain 's' ["symbolic"], .plain 'f' ["force"], .plain 'n' ["no-dereference"],
      .plain 'v' ["verbose"]]
    noWarnings fun call sh =>
      let link (source target : String) : Shell :=
        forEach [source] (linkFile (call.has "s") (call.has "f") · target) sh
      match call.operands with
      | [] => misused "missing file operand" sh
      | [source] => link source "."
      | [source, target] => link source target
      | _ => misused "too many operands" sh

end IncrementalBuild.Shell.Program
