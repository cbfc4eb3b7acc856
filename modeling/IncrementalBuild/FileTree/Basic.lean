import IncrementalBuild.System.Error
import IncrementalBuild.System.Path
import IncrementalBuild.Time.Stamp
import Std.Data.HashMap

/-!
# File trees

A file tree holds files, directories, symbolic links and devices in memory.  A `Place` is a
position in the tree, the names that lead to it from the root with the last one first; it
never passes through a link.  A file is known by a number, so that it stays what it is when
a name of it is removed or moved, and can have several names.  `FileTree.resolve` follows a
path to a place: components `.` and `..` are walked, links are followed, and the last
component need not be there.

A path is refused if it is empty or holds a NUL character, if it or one of its names is too
long, and if it leads through more than forty links.
-/

namespace IncrementalBuild

/-- A position in a file tree: names, the last one first. -/
abbrev Place : Type :=
  List String

/-- A device: one that swallows what is written to it, one that has no room for anything,
and those that stand for a stream of whoever opens them.  A program that can be started counts
as one, known by its name. -/
inductive Device
  | null
  | full
  | stream (descriptor : Nat)
  | program (name : String)
deriving DecidableEq, Repr

/-- What is at a place.  A file is given by its number. -/
inductive Entry
  | file (number : Nat)
  | directory (modified : Stamp)
  | link (target : String) (modified : Stamp)
  | device (device : Device) (modified : Stamp)
deriving DecidableEq

/-- A directory. -/
def Entry.isDirectory : Entry → Bool
  | .directory _ => true
  | .file _ | .link .. | .device .. => false

/-- What a file holds, and when it was last modified. -/
structure Content where
  bytes : ByteArray
  modified : Stamp

/-- The entries of a file tree, the contents of its files by number, the number of the next
new entry, the numbers of entries, and the time of the clock. -/
structure FileTree where
  entries : Std.HashMap Place Entry
  contents : Std.HashMap Nat Content
  fresh : Nat
  numbers : Std.HashMap Place Nat
  now : Stamp

namespace FileTree

/-- The number of bytes of the longest name. -/
def maxNameLength : Nat := 255

/-- The number of bytes of the longest path. -/
def maxPathLength : Nat := 4095

/-- The largest number of links on the way of a path. -/
def maxLinks : Nat := 40

/-- The names to be walked for a path; a slash at the end asks for a directory. -/
def steps (path : String) : List String :=
  let pieces := Path.pieces path.toList
  let names := (pieces.filter (· ≠ [])).map String.ofList
  if pieces.getLast? = some [] && !names.isEmpty then names ++ ["."] else names

/-- The place where the walk of a path begins. -/
def origin (here : Place) (path : String) : Place :=
  if Path.isAbsolute path then [] else here

/-- Walks names from a place, through at most a given number of links; a link at the end is
only followed if asked for.  A directory that has been removed still leads to the one it was
in. -/
def walk (tree : FileTree) (follow : Bool) :
    (links : Nat) → Place → List String → Except SystemError (Place × Option Entry)
  | _, here, [] =>
    match tree.entries[here]? with
    | none => .error .notFound
    | some entry => .ok (here, some entry)
  | links, here, name :: rest =>
    match tree.entries[here]? with
    | none =>
      if name = ".." then walk tree follow links here.tail rest else .error .notFound
    | some entry =>
      if !entry.isDirectory then
        .error .notADirectory
      else if name = "." then
        walk tree follow links here rest
      else if name = ".." then
        walk tree follow links here.tail rest
      else if maxNameLength < name.utf8ByteSize then
        .error .nameTooLong
      else
        match tree.entries[name :: here]? with
        | none => if rest.isEmpty then .ok (name :: here, none) else .error .notFound
        | some (.link target modified) =>
          if rest.isEmpty && !follow then
            .ok (name :: here, some (.link target modified))
          else
            match links with
            | 0 => .error .tooManyLinks
            | links + 1 =>
              if target = "" then .error .notFound
              else walk tree follow links (origin here target) (steps target ++ rest)
        | some _ => walk tree follow links (name :: here) rest
termination_by links _ names => (links, names.length)

/-- What is wrong with a path, whatever it leads to. -/
def pathFault? (path : String) : Option SystemError :=
  if path.toList.contains '\x00' then some .nulInName
  else if path = "" then some .notFound
  else if maxPathLength < path.utf8ByteSize then some .nameTooLong
  else none

/-- Follows a path from a place. -/
def resolve (tree : FileTree) (follow : Bool) (here : Place) (path : String) :
    Except SystemError (Place × Option Entry) :=
  match pathFault? path with
  | some e => .error e
  | none => tree.walk follow maxLinks (origin here path) (steps path)

/-- The path without slashes at its end, unless it consists of slashes. -/
def withoutSlash (path : String) : String :=
  let cs := (path.toList.reverse.dropWhile (· = '/')).reverse
  if cs.isEmpty then path else String.ofList cs

/-- The place that the last name of a path names, where neither a link at the end nor a
slash after it is followed. -/
def locate (tree : FileTree) (here : Place) (path : String) :
    Except SystemError (Place × Option Entry) :=
  match pathFault? path with
  | some e => .error e
  | none => tree.walk false maxLinks (origin here path) (steps (withoutSlash path))

/-- What a path leads to. -/
def entryAt (tree : FileTree) (here : Place) (path : String) : Except SystemError Entry :=
  match tree.resolve true here path with
  | .error e => .error e
  | .ok (_, none) => .error .notFound
  | .ok (_, some entry) => .ok entry

/-- What a path names, without following a link at its end. -/
def linkEntryAt (tree : FileTree) (here : Place) (path : String) : Except SystemError Entry :=
  match tree.resolve false here path with
  | .error e => .error e
  | .ok (_, none) => .error .notFound
  | .ok (_, some entry) => .ok entry

/-- What the file of a number holds. -/
def content (tree : FileTree) (number : Nat) : Content :=
  tree.contents.getD number ⟨.empty, .epoch⟩

/-- When an entry was last modified. -/
def modifiedOf (tree : FileTree) : Entry → Stamp
  | .file number => (tree.content number).modified
  | .directory time | .device _ time | .link _ time => time

/-- A path leads to a regular file. -/
def isFile (tree : FileTree) (here : Place) (path : String) : Bool :=
  match tree.entryAt here path with
  | .ok (.file _) => true
  | _ => false

/-- A path leads to a directory. -/
def isDirectory (tree : FileTree) (here : Place) (path : String) : Bool :=
  match tree.entryAt here path with
  | .ok (.directory _) => true
  | _ => false

/-- When the file a path leads to was last modified. -/
def stat (tree : FileTree) (here : Place) (path : String) : Except SystemError Stamp :=
  (tree.entryAt here path).map tree.modifiedOf

/-- The bytes of the file a path leads to. -/
def read (tree : FileTree) (here : Place) (path : String) : Except SystemError ByteArray :=
  match tree.entryAt here path with
  | .error e => .error e
  | .ok (.file number) => .ok (tree.content number).bytes
  | .ok (.device ..) => .ok .empty
  | .ok (.directory _) => .error .isADirectory
  | .ok (.link ..) => .error .tooManyLinks

/-- The place of the directory a path leads to. -/
def directoryAt (tree : FileTree) (here : Place) (path : String) : Except SystemError Place :=
  match tree.resolve true here path with
  | .error e => .error e
  | .ok (_, none) => .error .notFound
  | .ok (place, some entry) => if entry.isDirectory then .ok place else .error .notADirectory

/-- The names in the directory at a place, in their order. -/
def namesIn (tree : FileTree) (place : Place) : List String :=
  let names := tree.entries.toList.filterMap fun (other, _) =>
    match other with
    | [] => none
    | name :: parent => if parent = place then some name else none
  names.mergeSort fun name other => decide (name ≤ other)

/-- The number of the entry at a place.  New entries have larger numbers, and all names of a
file have the same. -/
def numberAt (tree : FileTree) (place : Place) : Nat :=
  match tree.entries[place]? with
  | some (.file number) => number
  | _ => tree.numbers.getD place 0

/-- The names in the directory at a place, in the order in which their entries were made. -/
def namesByAge (tree : FileTree) (place : Place) : List String :=
  (tree.namesIn place).mergeSort fun name other =>
    tree.numberAt (name :: place) ≤ tree.numberAt (other :: place)

/-- The number of names that a file has. -/
def nameCount (tree : FileTree) (number : Nat) : Nat :=
  tree.entries.toList.countP fun (_, entry) => entry = .file number

/-- The entries below a place, each with its names from the place on. -/
def below (tree : FileTree) (place : Place) : List (List String × Entry) :=
  tree.entries.toList.filterMap fun (other, entry) =>
    if place.isSuffixOf other && place.length < other.length then
      some ((other.take (other.length - place.length)).reverse, entry)
    else
      none

end FileTree

end IncrementalBuild
