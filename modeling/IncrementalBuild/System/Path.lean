import IncrementalBuild.Text.Blank

/-!
# Paths

A path is a text whose components are separated by slashes.  `join` reads a name from a
directory, without looking at any file: an absolute name stands for itself, and nothing is
simplified.  `fileName?` is the last component and `parent?` the text before it; both pass
over empty components and, except at the beginning, over components `.`.
-/

namespace IncrementalBuild.Path

/-- A path that begins with a slash. -/
def isAbsolute (path : String) : Bool :=
  path.toList.head? = some '/'

/-- The path of a name read from a directory. -/
def join (directory name : String) : String :=
  if isAbsolute name || directory = "" then
    name
  else if directory.toList.getLast? = some '/' then
    directory ++ name
  else
    directory ++ "/" ++ name

/-- The texts between slashes, from left to right. -/
def pieces : List Char → List (List Char)
  | [] => [[]]
  | c :: cs =>
    if c = '/' then
      [] :: pieces cs
    else
      match pieces cs with
      | [] => [[c]]
      | piece :: rest => (c :: piece) :: rest

/-- What a path begins with before its components: a slash, a component `.`, or nothing. -/
def opening : List Char → List Char
  | '/' :: _ => ['/']
  | ['.'] => ['.']
  | '.' :: '/' :: _ => ['.']
  | _ => []

/-- A component that is passed over. -/
def isVoid (component : List Char) : Bool :=
  component = [] || component = ['.']

/-- The last component of a text that is not passed over, and the text up to the one
before it. -/
def splitLast? (body : List Char) : Option (List Char × List Char) :=
  match (pieces body).reverse.dropWhile isVoid with
  | [] => none
  | last :: before => some (['/'].intercalate (before.dropWhile isVoid).reverse, last)

/-- The last component of a path, unless it leads upward. -/
def fileName? (path : String) : Option String :=
  let cs := path.toList
  match splitLast? (cs.drop (opening cs).length) with
  | none => none
  | some (_, last) => if last = ['.', '.'] then none else some (String.ofList last)

/-- The path before the last component. -/
def parent? (path : String) : Option String :=
  let cs := path.toList
  let start := opening cs
  match splitLast? (cs.drop start.length) with
  | none => if start = ['.'] then some "" else none
  | some (before, _) => some (String.ofList (start ++ before))

end IncrementalBuild.Path
