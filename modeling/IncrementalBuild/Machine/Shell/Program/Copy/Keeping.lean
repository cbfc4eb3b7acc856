import IncrementalBuild.Machine.Shell.Program.Copy.Found

/-!
# Keeping files that are replaced

Before a file is replaced it can be given another name, which is its own with a suffix or
with a number.  The number is one more than the largest that is in use, and stands between
tildes after a point.
-/

namespace IncrementalBuild.Shell.Program

/-- The digits between tildes that a name ends in, after the name of a file. -/
def numberAfter? (base name : String) : Option Nat :=
  match name.toList.drop base.length with
  | '.' :: '~' :: c :: rest =>
    let digits := (c :: rest).takeWhile Decimal.isDigit
    if name.startsWith base && Decimal.isDigit c && c ≠ '0'
        && (c :: rest).drop digits.length = ['~'] then
      some (Decimal.value digits)
    else
      none
  | _ => none

/-- The largest number that a file in a directory has been kept with. -/
def largestNumber (tree : FileTree) (place : Place) (base : String) : Nat :=
  ((tree.namesIn place).filterMap (numberAfter? base)).foldl max 0

/-- A name that is cut to the length of the longest one, with a tilde as its last
character. -/
def fitted (base extended : String) : String :=
  if extended.utf8ByteSize ≤ FileTree.maxNameLength then extended
  else
    let bytes := base.toUTF8.extract 0 (FileTree.maxNameLength - 1)
    (String.fromUTF8? bytes).getD base ++ "~"

/-- The path under which the file of a path is kept. -/
def Copying.keptPath (copying : Copying) (keeping : Keeping) (sh : Shell) (path : String) :
    String :=
  let base := lastName path
  let cs := (FileTree.withoutSlash path).toList
  let start := String.ofList (cs.take (cs.length - base.length))
  let largest :=
    match sh.machine.tree.directoryAt sh.here (directoryOf path) with
    | .ok place => largestNumber sh.machine.tree place base
    | .error _ => 0
  let numbered := base ++ ".~" ++ Decimal.ofNat (largest + 1) ++ "~"
  match keeping with
  | .suffixed => path ++ copying.suffix
  | .asBefore =>
    start ++ (if largest = 0 then fitted base (base ++ copying.suffix) else fitted base numbered)
  | .numbered => start ++ fitted base numbered

/-- Whether a source is what would be lost if a file at a destination were kept. -/
def Copying.isKeptAlready (copying : Copying) (sh : Shell) (source target : String)
    (origin : Found) : Bool :=
  lastName source = lastName target ++ copying.suffix
    && (match find sh true (target ++ copying.suffix) with
      | .ok found => found.isSame origin
      | .error _ => false)

end IncrementalBuild.Shell.Program
