import IncrementalBuild.Machine.Shell.Program.Copy.Copier

/-!
# What is in the way of a copy

A copy is not put where something stands in its way: the source itself, a directory in the
place of a file, what has only just been put there, or, if it is asked for, anything at all.
A file that may be replaced can be kept under another name.
-/

namespace IncrementalBuild.Shell.Program

/-- Passes over a source whose destination is not older.  If the source has been copied before,
the destination becomes a name of that copy. -/
def Copier.passOverOld (copier : Copier) (origin : Found) (target : String) : Bool × Copier :=
  match copier.earlier? origin with
  | some earlier => copier.copyName earlier target
  | none => (true, copier.remember origin target)

/-- Whether a source may be copied to a destination that is there.  If nothing is to be
copied, the first component says whether that is a success. -/
def Copying.admit (copying : Copying) (isOperand : Bool) (source target : String)
    (origin there : Found) (copier : Copier) : Option Bool × Copier :=
  let sh := copier.shell
  let tree := sh.machine.tree
  let overlap :=
    if copying.overwrites = .never then .apart
    else
      let name? := copier.sourceName? source
      let isSameName : Bool := name?.isSome && name? = copier.targetName? target
      copying.overlap isSameName sh source target origin there
  let refuse (message : String) : Option Bool × Copier := (some false, copier.warn message)
  if overlap = .same then
    refuse (shown source ++ " and " ++ shown target ++ " are the same file")
  else if copying.onlyNewer && !origin.isDirectory
      && compare (tree.modifiedOf there.entry) (tree.modifiedOf origin.entry) != .lt then
    let (succeeded, copier) := copier.passOverOld origin target
    (some succeeded, copier)
  else if copying.overwrites = .never && !origin.isDirectory then
    (some true, copier)
  else
    let (goesOn, copier) :=
      if copying.overwrites = .asked && !origin.isDirectory then
        let (isAffirmed, work) := copier.work.ask ("overwrite " ++ shown target)
        (isAffirmed, { copier with work := work })
      else
        (true, copier)
    if !goesOn || overlap = .settled then
      (some true, copier)
    else if origin.isDirectory && !there.isDirectory then
      refuse ("cannot overwrite non-directory " ++ shown target ++ " with directory "
        ++ shown source)
    else if isOperand && copying.tracks && copying.keeps ≠ some .numbered && !there.isDirectory
        && copier.made.any fun (place, found) =>
          some place = copier.targetName? target && found.isSame there then
      refuse ("will not overwrite just-created " ++ shown target ++ " with " ++ shown source)
    else if !origin.isDirectory && there.isDirectory then
      refuse ("cannot overwrite directory " ++ shown target ++ " with non-directory")
    else
      (none, copier)

/-- Whether a file that is at a destination is removed before something is copied to it. -/
def Copying.replaces (copying : Copying) (origin there : Found) (copier : Copier) : Bool :=
  !there.isDirectory
    && (copying.removesFirst
      || (copying.copiesBytes
        && ((copying.keepsNames && there.hasOtherNames copier.work.tree)
          || (copying.follows = .never && !origin.isFile))))

/-- Makes room at a destination for a copy that may be put there: what is there is kept under
another name, whose path is returned, or removed.  The first component says whether there is
nothing left. -/
def Copying.makeRoom (copying : Copying) (source target : String) (origin there : Found)
    (copier : Copier) : Except String (Bool × Option String) × Copier :=
  match copying.keeps.filter fun _ => !there.isDirectory && !isRelative source with
  | some keeping =>
    match copying.keep keeping source target origin copier with
    | (.error message, copier) => (.error message, copier)
    | (.ok kept, copier) => (.ok (true, kept), copier)
  | none =>
    if copying.replaces origin there copier then
      match copier.remove target with
      | .error e => (.error ("cannot remove " ++ shown target ++ ": " ++ e.reason), copier)
      | .ok copier => (.ok (true, none), copier)
    else
      (.ok (false, none), copier)

end IncrementalBuild.Shell.Program
