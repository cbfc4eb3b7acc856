import IncrementalBuild.FileTree.Basic

/-!
# Changes to a file tree

Files are written, links and directories made, and entries removed.  A new or changed file
is stamped with the time of the clock, and so is a directory whenever a name is added to it
or removed from it.  Every change returns the tree it leaves behind.
-/

namespace IncrementalBuild.FileTree

/-- The tree without entries but the root directory. -/
def root (now : Stamp) : FileTree where
  entries := (∅ : Std.HashMap Place Entry).insert [] (.directory now)
  contents := ∅
  fresh := 0
  numbers := ∅
  now := now

/-- Stamps a file with a time. -/
def stampFile (tree : FileTree) (number : Nat) (time : Stamp) : FileTree :=
  let content := { tree.content number with modified := time }
  { tree with contents := tree.contents.insert number content }

/-- Stamps what is at a place with a time. -/
def stampAt (tree : FileTree) (place : Place) (time : Stamp) : FileTree :=
  match tree.entries[place]? with
  | some (.file number) => tree.stampFile number time
  | some (.directory _) => { tree with entries := tree.entries.insert place (.directory time) }
  | some (.device device _) =>
    { tree with entries := tree.entries.insert place (.device device time) }
  | some (.link target _) =>
    { tree with entries := tree.entries.insert place (.link target time) }
  | none => tree

/-- Puts an entry at a place, in a directory that is there. -/
def put (tree : FileTree) (place : Place) (entry : Entry) : FileTree :=
  let isNew := !tree.entries.contains place
  let tree := { tree with entries := tree.entries.insert place entry }
  if isNew then
    { tree with
      numbers := tree.numbers.insert place tree.fresh
      fresh := tree.fresh + 1 }.stampAt place.tail tree.now
  else
    tree

/-- Puts a new file at a place. -/
def putFile (tree : FileTree) (place : Place) (content : Content) : FileTree :=
  let number := tree.fresh
  { tree with contents := tree.contents.insert number content, fresh := number + 1 }.put place
    (.file number)

/-- Gives a file other bytes. -/
def setBytes (tree : FileTree) (number : Nat) (bytes : ByteArray) : FileTree :=
  { tree with contents := tree.contents.insert number ⟨bytes, tree.now⟩ }

/-- Writes bytes to a file from a position on; what lies between its end and the position
is filled with zeros. -/
def writeAt (tree : FileTree) (number position : Nat) (bytes : ByteArray) : FileTree :=
  let old := (tree.content number).bytes
  let gap := ByteArray.mk (Array.replicate (position - old.size) 0)
  tree.setBytes number
    (old.extract 0 position ++ gap ++ bytes
      ++ old.extract (position + bytes.size) old.size)

/-- What a path leads to, for writing: a file that is not there is made, and a directory is
refused.  A slash at the end asks for a directory, whether its name is taken or not. -/
def openFile (tree : FileTree) (here : Place) (path : String) :
    Except SystemError Entry × FileTree :=
  let names := steps (withoutSlash path)
  if path.endsWith "/" && !names.isEmpty then
    match pathFault? path, tree.walk true maxLinks (origin here path) (names.dropLast ++ ["."]) with
    | some e, _ | none, .error e => (.error e, tree)
    | none, .ok _ => (.error .isADirectory, tree)
  else
    match tree.resolve true here path with
    | .error e => (.error e, tree)
    | .ok (_, some (.directory _)) => (.error .isADirectory, tree)
    | .ok (_, some entry) => (.ok entry, tree)
    | .ok (place, none) =>
      (.ok (.file tree.fresh), tree.putFile place ⟨.empty, tree.now⟩)

/-- Writes the whole of a file, which need not be there yet. -/
def write (tree : FileTree) (here : Place) (path : String) (bytes : ByteArray) :
    Except SystemError Unit × FileTree :=
  match tree.openFile here path with
  | (.error e, tree) => (.error e, tree)
  | (.ok (.file number), tree) => (.ok (), tree.setBytes number bytes)
  | (.ok _, tree) => (.ok (), tree)

/-- Stamps what a path leads to, or, without following a link at its end, what it names, with a
time. -/
def setTime (tree : FileTree) (follow : Bool) (here : Place) (path : String) (time : Stamp) :
    Except SystemError Unit × FileTree :=
  match tree.resolve follow here path with
  | .error e => (.error e, tree)
  | .ok (_, none) => (.error .notFound, tree)
  | .ok (place, some _) => (.ok (), tree.stampAt place time)

/-- Makes a link. -/
def makeLink (tree : FileTree) (here : Place) (path target : String) :
    Except SystemError Unit × FileTree :=
  match tree.resolve false here path with
  | .error e => (.error e, tree)
  | .ok (_, some _) => (.error .fileExists, tree)
  | .ok (place, none) =>
    if target = "" then (.error .notFound, tree)
    else if maxPathLength < target.utf8ByteSize then (.error .nameTooLong, tree)
    else (.ok (), tree.put place (.link target tree.now))

/-- Makes a directory. -/
def makeDirectory (tree : FileTree) (here : Place) (path : String) :
    Except SystemError Unit × FileTree :=
  match tree.locate here path with
  | .error e => (.error e, tree)
  | .ok (_, some _) => (.error .fileExists, tree)
  | .ok (place, none) => (.ok (), tree.put place (.directory tree.now))

/-- Makes a directory and those on the way to it, one for each text in a list. -/
def makeDirectoriesOf (tree : FileTree) (here : Place) :
    List String → Except SystemError Unit × FileTree
  | [] => (.ok (), tree)
  | path :: rest =>
    if tree.isDirectory here path then
      makeDirectoriesOf tree here rest
    else
      match tree.makeDirectory here path with
      | (.error e, tree) => (.error e, tree)
      | (.ok (), tree) => makeDirectoriesOf tree here rest

/-- The paths that end where a component of a path ends, the shortest first. -/
def initials (path : String) : List String :=
  let pieces := Path.pieces path.toList
  ((List.range pieces.length).map fun count =>
    String.ofList (['/'].intercalate (pieces.take (count + 1)))).filter (· ≠ "")

/-- Makes a directory and those on the way to it that are not there yet. -/
def makeDirectories (tree : FileTree) (here : Place) (path : String) :
    Except SystemError Unit × FileTree :=
  tree.makeDirectoriesOf here (initials path)

/-- Removes the entry at a place. -/
def eraseAt (tree : FileTree) (place : Place) : FileTree :=
  { tree with entries := tree.entries.erase place }.stampAt place.tail tree.now

/-- Removes a file or a link. -/
def remove (tree : FileTree) (here : Place) (path : String) :
    Except SystemError Unit × FileTree :=
  match tree.locate here path with
  | .error e => (.error e, tree)
  | .ok (_, none) => (.error .notFound, tree)
  | .ok (_, some (.directory _)) => (.error .isADirectory, tree)
  | .ok (place, some _) =>
    if path.endsWith "/" then (.error .notADirectory, tree) else (.ok (), tree.eraseAt place)

/-- Removes an empty directory. -/
def removeDirectory (tree : FileTree) (here : Place) (path : String) :
    Except SystemError Unit × FileTree :=
  match tree.locate here path with
  | .error e => (.error e, tree)
  | .ok (_, none) => (.error .notFound, tree)
  | .ok (place, some (.directory _)) =>
    match (steps (withoutSlash path)).getLast? with
    | some "." => (.error .invalidArgument, tree)
    | _ =>
      if (tree.namesIn place).isEmpty then (.ok (), tree.eraseAt place)
      else (.error .directoryNotEmpty, tree)
  | .ok (_, some _) => (.error .notADirectory, tree)

/-- Gives what a path names, which is not a directory, another name.  Nothing happens if it is
a name of the same file. -/
def rename (tree : FileTree) (here : Place) (path newPath : String) :
    Except SystemError Unit × FileTree :=
  match tree.resolve false here path, tree.resolve false here newPath with
  | .error e, _ | _, .error e => (.error e, tree)
  | .ok (_, none), _ => (.error .notFound, tree)
  | .ok (place, some entry), .ok (newPlace, there) =>
    match entry, there with
    | _, some (.directory _) => (.error .isADirectory, tree)
    | .file number, some (.file otherNumber) =>
      if number = otherNumber then (.ok (), tree)
      else (.ok (), (tree.eraseAt place).put newPlace entry)
    | _, _ =>
      if place = newPlace then (.ok (), tree)
      else if newPath.endsWith "/" then (.error .notADirectory, tree)
      else (.ok (), (tree.eraseAt place).put newPlace entry)

/-- Moves the entry at a place, with everything below it, to another place. -/
def moveAt (tree : FileTree) (place other : Place) : FileTree :=
  match tree.entries[place]? with
  | none => tree
  | some entry =>
    let below := tree.below place
    let tree := (tree.eraseAt place).put other entry
    below.foldl (fun tree (names, entry) =>
      { tree with
        entries := (tree.entries.erase (names.reverse ++ place)).insert
          (names.reverse ++ other) entry }) tree

end IncrementalBuild.FileTree
