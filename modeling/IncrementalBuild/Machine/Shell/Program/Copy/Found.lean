import IncrementalBuild.Machine.Shell.Program.Copy.Request

/-!
# Sources and destinations

An entry that has been found, and how a source is related to a destination that is there:
whether they are the same, in a way that forbids the copy, or settles it.
-/

namespace IncrementalBuild.Shell.Program

/-- An entry where it has been found. -/
structure Found where
  place : Place
  entry : Entry
deriving DecidableEq

namespace Found

/-- Two findings are the same thing; a file can be found at several places. -/
def isSame (found other : Found) : Bool :=
  match found.entry, other.entry with
  | .file number, .file otherNumber => number = otherNumber
  | _, _ => found.place = other.place

/-- A link has been found. -/
def isLink (found : Found) : Bool :=
  match found.entry with
  | .link .. => true
  | _ => false

/-- A directory has been found. -/
def isDirectory (found : Found) : Bool :=
  found.entry.isDirectory

/-- A file has been found. -/
def isFile (found : Found) : Bool :=
  match found.entry with
  | .file _ => true
  | _ => false

/-- A file has been found that has other names. -/
def hasOtherNames (found : Found) (tree : FileTree) : Bool :=
  match found.entry with
  | .file number => 1 < tree.nameCount number
  | _ => false

end Found

/-- What a path leads to, or, without following a link at its end, what it names. -/
def find (sh : Shell) (follow : Bool) (path : String) : Except SystemError Found :=
  match sh.machine.tree.resolve follow sh.here path with
  | .error e => .error e
  | .ok (_, none) => .error .notFound
  | .ok (place, some entry) =>
    if follow then (sh.behind entry).map fun entry => ⟨place, entry⟩ else .ok ⟨place, entry⟩

/-- A destination as a path: the empty one stands for the directory of the shell. -/
def orHere (path : String) : String :=
  if path = "" then "." else path

/-- The path of the directory that the last name of a path is in. -/
def directoryOf (path : String) : String :=
  let path := FileTree.withoutSlash path
  let before := (path.toList.reverse.dropWhile (· ≠ '/')).reverse
  if before.isEmpty then "." else FileTree.withoutSlash (String.ofList before)

/-- The name of a path, after the place that the path of its directory names, be that a
link. -/
def nameOf? (tree : FileTree) (here : Place) (path : String) : Option Place :=
  match tree.resolve false here (directoryOf path) with
  | .ok (place, some _) => some (lastName path :: place)
  | _ => none

/-- How a source and a destination that is there are related: they are apart, or the same,
or the same in such a way that nothing is left to be done. -/
inductive Overlap
  | apart
  | same
  | settled
deriving DecidableEq, Repr

/-- How a source and a destination that is there are related, once it is known what their
paths name, and whether they are the same name in the same directory. -/
def Copying.overlapOfNames (copying : Copying) (isSameName : Bool) (sh : Shell)
    (source target : String) (origin there : Found) : Overlap :=
  let isSame := origin.isSame there
  let makesNames : Bool := copying.product = .name
  if copying.keeps.isSome then
    if isSame then (if isSameName then .same else .apart)
    else if copying.follows ≠ .never && origin.isLink && !there.isLink then .same
    else .apart
  else if copying.removesFirst && there.isLink then
    .apart
  else if copying.removesFirst && isSame && there.hasOtherNames sh.machine.tree
      && !isSameName then
    .apart
  else if !origin.isLink && !there.isLink && !isSame then
    .apart
  else if !origin.isLink && !there.isLink && makesNames then
    .settled
  else if copying.product = .link && there.isLink then
    .apart
  else if copying.follows = .never then
    match find sh true source, find sh true (orHere target) with
    | .ok final, .ok finalThere =>
      if !final.isSame finalThere then .apart
      else if !makesNames then .same
      else if there.isLink then .apart
      else .settled
    | _, _ => .apart
  else
    .same

/-- How a source and a destination that is there are related, once it is known whether they are
the same name in the same directory. -/
def Copying.overlap (copying : Copying) (isSameName : Bool) (sh : Shell)
    (source target : String) (origin there : Found) : Overlap :=
  if copying.product = .name && origin.isSame there then
    .settled
  else if copying.follows = .never then
    if origin.isLink && there.isLink then
      (if isSameName then .same else .apart)
    else
      copying.overlapOfNames isSameName sh source target origin there
  else if !origin.isSame there then
    .apart
  else
    match find sh false source, find sh false (orHere target) with
    | .ok origin, .ok there =>
      if origin.isLink && there.isLink && copying.removesFirst then .apart
      else copying.overlapOfNames isSameName sh source target origin there
    | _, _ => .apart

end IncrementalBuild.Shell.Program
