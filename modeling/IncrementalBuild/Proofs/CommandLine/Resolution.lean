import IncrementalBuild.Proofs.FileTree.Descent
import IncrementalBuild.System.Host

/-!
# Systems that are used from two places

A system resolves relative paths from the place where it is used.  Of two systems,
`System.ResolvesAlike` says that what the one resolves from a directory is resolved by the other one
as if it were used from inside this directory, and that commands do the same there.

A `Kernel` has a file tree, in which paths are resolved, and a shell that is given commands at a
place of it.  It can be used from any place, `Kernel.seenFrom`; and while a directory stands, it is
two systems that resolve alike.
-/

namespace IncrementalBuild

variable {World : Type}

/-- In a world, what the one system resolves from a directory is resolved by the other one without
the directory, and a command that is run in the directory does what it does in the current directory
of the other one.  Requests may fail for any reason, but they fail for both.  Nothing is said of
paths that are longer than the limit, or of times and texts where there is no path or no file. -/
structure System.ResolvesAlike (outside inside : System World) (directory : String) (limit : Nat)
    (world : World) : Prop where
  isFile : ∀ path, (Path.join directory path).utf8ByteSize ≤ limit →
    outside.isFile world (Path.join directory path) = inside.isFile world path
  read : ∀ path, (Path.join directory path).utf8ByteSize ≤ limit →
    inside.isFile world path = true →
    outside.read world (Path.join directory path) = inside.read world path
  stat : ∀ path, path ≠ "" → (Path.join directory path).utf8ByteSize ≤ limit →
    outside.stat world (Path.join directory path) = inside.stat world path
  current : ∀ path, path ≠ "" → (Path.join "." path).utf8ByteSize ≤ limit →
    inside.stat world (Path.join "." path) = inside.stat world path
  shell : ∀ command, outside.shell world directory command = inside.shell world "." command

/-! ### File trees with a shell -/

/-- A file tree, and what a shell does that is given a command at a place. -/
structure Kernel (World : Type) where
  tree : World → FileTree
  /-- How the shell ends, and the world it leaves. -/
  shell : World → Place → (command : String) → Except SystemError ExitStatus × World

namespace Kernel

/-- The system as it is used from a place. -/
def seenFrom (k : Kernel World) (here : Place) : System World where
  isFile world := (k.tree world).isFile here
  read world path :=
    match (k.tree world).read here path with
    | .error e => .error e
    | .ok bytes =>
      match String.fromUTF8? bytes with
      | none => .error .invalidText
      | some text => .ok text
  stat world := (k.tree world).stat here
  shell world directory command :=
    match (k.tree world).directoryAt here directory with
    | .error e => (.error e, world)
    | .ok place => k.shell world place command

variable {k : Kernel World} {here there : Place} {world : World} {path directory text : String}

/-- A file that holds the bytes of a text is read as this text. -/
theorem read_seenFrom (h : (k.tree world).read here path = .ok text.toUTF8) :
  (k.seenFrom here).read world path = .ok text
  := by
  have htext : String.fromUTF8? text.toUTF8 = some text := dif_pos text.isValidUTF8
  simp only [seenFrom, h, htext]

/-- While a directory stands, a kernel resolves alike from outside and from inside of it. -/
theorem resolvesAlike_seenFrom (h : (k.tree world).StandsAt here directory there) :
  (k.seenFrom here).ResolvesAlike (k.seenFrom there) directory FileTree.maxPathLength world
  where
  isFile _ hshort := h.isFile_join hshort
  read _ hshort hfile := by simp only [seenFrom, h.read_join hfile hshort]
  stat _ hempty hshort := h.stat_join hempty hshort
  current _ hempty hshort := h.dot.stat_join hempty hshort
  shell _ := by simp only [seenFrom, h.directoryAt, h.dot.directoryAt]

end Kernel

end IncrementalBuild
