import IncrementalBuild.Text.Word

/-!
# The lines of a build file

A line is blank, or begins with a tab and is a command, or is a rule.  A rule names a
target, then, after a colon, the dependencies of the target.  `Rule.parse` reads a rule;
where the line has no single colon or no single word before it, it answers with the
`Flaw` found first, a kind of `Malformation` and the stretch of the line to blame.
-/

namespace IncrementalBuild.BuildFile

open Text

/-- What a line says. -/
inductive Statement
  | blank
  | command (text : List Char)
  | rule
deriving DecidableEq, Repr

/-- What the content of a line says; a command is trimmed. -/
def Statement.ofContent (content : List Char) : Statement :=
  if content.all isBlank then
    .blank
  else
    match content with
    | '\t' :: rest => .command (trim rest)
    | _ => .rule

/-- The ways in which a line can break the grammar. -/
inductive Malformation
  | commandBeforeTarget
  | missingColon
  | extraColon
  | emptyName
  | invalidName (name : String)
deriving DecidableEq, Repr

/-- What is wrong, in words. -/
def Malformation.message : Malformation → String
  | .commandBeforeTarget => "command appears before any target"
  | .missingColon => "target line must contain a name followed by a colon"
  | .extraColon => "target line must contain exactly one colon"
  | .emptyName => "target name is empty"
  | .invalidName name => "target name `" ++ name ++ "` must be a single word"

/-- Advice on what to write instead. -/
def Malformation.help : Malformation → Option String
  | .commandBeforeTarget => some "start the file with a target line such as `all: main.o`"
  | .missingColon => some "command lines must start with a tab; other lines declare targets"
  | .extraColon | .emptyName | .invalidName _ => none

/-- A malformation, and the offset within the line and the length of the stretch to blame. -/
structure Flaw where
  kind : Malformation
  offset : Nat
  length : Nat
deriving DecidableEq, Repr

/-- A rule: the name of a target and the names of its dependencies, each where it stands. -/
structure Rule where
  name : Word
  dependencies : List Word
deriving DecidableEq, Repr

/-- The rule that the content of a line states. -/
def Rule.parse (content : List Char) : Except Flaw Rule :=
  let head := content.takeWhile (· ≠ ':')
  match content.dropWhile (· ≠ ':') with
  | [] => .error ⟨.missingColon, 0, byteLength content⟩
  | _ :: tail =>
    let colon := byteLength head
    if tail.contains ':' then
      .error ⟨.extraColon, colon + 1 + byteLength (tail.takeWhile (· ≠ ':')), 1⟩
    else
      match words head with
      | [] => .error ⟨.emptyName, colon, 1⟩
      | [name] => .ok ⟨name, wordsFrom (colon + 1) tail⟩
      | first :: _ :: _ =>
        let name := trim head
        .error ⟨.invalidName (String.ofList name), first.offset, byteLength name⟩

end IncrementalBuild.BuildFile
