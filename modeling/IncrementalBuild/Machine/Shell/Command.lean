import IncrementalBuild.Machine.Shell.Token

/-!
# The commands of the shell

A command is a program with its arguments and redirections, commands between parentheses
or braces, or commands put together: one after the other, one only if the other succeeds
or fails, or one reading what the other writes.  A command can also be sent into the
background.  `Command.ofLine` parses a command line into the commands of its lines, and
says whether it stopped at something it could not parse.
-/

namespace IncrementalBuild.Shell

/-- A redirection of a stream to or from what a word names. -/
structure Redirection where
  stream : Nat
  direction : Direction
  target : Word
deriving DecidableEq, Repr

/-- A command.  A simple command and a group know the line they begin in. -/
inductive Command
  | simple (line : Nat) (assignments : List (String × Word)) (words : List Word)
      (redirections : List Redirection)
  | grouped (line : Nat) (isolated : Bool) (body : Command) (redirections : List Redirection)
  | piped (left right : Command)
  | negated (body : Command)
  | both (left right : Command)
  | either (left right : Command)
  | sequence (left right : Command)
  | background (body : Command)
deriving Repr

/-- A command between braces with redirections.  Those of an isolated group within it are
dropped. -/
def Command.redirected (line : Nat) (body : Command) (redirections : List Redirection) :
    Command :=
  if redirections.isEmpty then
    body
  else
    match body with
    | .grouped line true inner _ => .grouped line true inner redirections
    | body => .grouped line false body redirections

/-- A word that consists of one text without quotes. -/
def plainText (word : Word) : Option String :=
  let texts := word.map fun part =>
    match part with
    | .text chars false => some chars
    | _ => none
  if texts.all Option.isSome then some (String.ofList (texts.flatMap fun text => text.getD []))
  else none

/-- The words that cannot begin a command, or begin one that is not provided for. -/
def reserved : List String :=
  ["if", "then", "else", "elif", "fi", "do", "done", "case", "esac", "while", "until", "for", "in",
    "\x7b", "\x7d", "!"]

/-- The name and the value that a word assigns. -/
def assignment? (word : Word) : Option (String × Word) :=
  let isPlain : Part → Bool := fun part =>
    match part with
    | .text [c] false => isNameChar c
    | _ => false
  match word.dropWhile isPlain with
  | .text ['='] false :: value =>
    match plainText (word.takeWhile isPlain) with
    | none => none
    | some name => if name.toList.head?.any isNameStart then some (name, value) else none
  | _ => none

/-- The redirections a token list begins with, and the tokens after them. -/
def readRedirections : List Located → Option (List Redirection × List Located)
  | ⟨.redirection stream direction, _⟩ :: ⟨.word target, _⟩ :: rest =>
    match readRedirections rest with
    | none => none
    | some (more, rest) => some (⟨stream, direction, target⟩ :: more, rest)
  | ⟨.redirection _ _, _⟩ :: _ => none
  | rest => some ([], rest)

/-- The redirections after a group, and the tokens after them.  No word can follow them: not
even a brace closes anything there. -/
def readGroupRedirections (tokens : List Located) :
    Option (List Redirection × List Located) :=
  match readRedirections tokens with
  | some (_ :: _, ⟨.word _, _⟩ :: _) => none
  | redirections => redirections

/-- The words and redirections a token list begins with, added to those of a simple
command, and the tokens after them. -/
def readSimple (line : Nat) :
    List (String × Word) → List Word → List Redirection → List Located →
    Option (Command × List Located)
  | assignments, words, redirections,
      ⟨.redirection stream direction, _⟩ :: ⟨.word target, _⟩ :: rest =>
    readSimple line assignments words (redirections ++ [⟨stream, direction, target⟩]) rest
  | _, _, _, ⟨.redirection _ _, _⟩ :: _ => none
  | assignments, [], redirections, ⟨.word word, _⟩ :: rest =>
    match assignment? word with
    | some assignment => readSimple line (assignments ++ [assignment]) [] redirections rest
    | none => readSimple line assignments [word] redirections rest
  | assignments, words, redirections, ⟨.word word, _⟩ :: rest =>
    readSimple line assignments (words ++ [word]) redirections rest
  | assignments, words, redirections, rest =>
    if assignments.isEmpty && words.isEmpty && redirections.isEmpty then none
    else some (.simple line assignments words redirections, rest)

/-- The tokens without newlines at their beginning. -/
def skipNewlines : List Located → List Located
  | ⟨.operator .newline, _⟩ :: rest => skipNewlines rest
  | rest => rest

/-- A token list that goes on with no further command of a list. -/
def endsList : List Located → Bool
  | [] => true
  | ⟨.operator .closing, _⟩ :: _ => true
  | ⟨.word word, _⟩ :: _ => plainText word = some "\x7d"
  | _ => false

/-- Whether a token list begins with an exclamation mark, and the tokens after it. -/
def afterNegation : List Located → Bool × List Located
  | ⟨.word word, line⟩ :: rest =>
    if plainText word = some "!" then (true, rest) else (false, ⟨.word word, line⟩ :: rest)
  | tokens => (false, tokens)

mutual

/-- The commands separated by semicolons that a token list begins with.  Within a group,
newlines separate commands as well. -/
def readList (grouped : Bool) : (fuel : Nat) → List Located → Option (Command × List Located)
  | 0, _ => none
  | fuel + 1, tokens =>
    match readAndOr fuel (if grouped then skipNewlines tokens else tokens) with
    | none => none
    | some (left, rest) =>
      let left :=
        match rest with
        | ⟨.operator .ampersand, _⟩ :: _ => .background left
        | _ => left
      let rest? :=
        match rest with
        | ⟨.operator .semicolon, _⟩ :: rest => some rest
        | ⟨.operator .ampersand, _⟩ :: rest => some rest
        | ⟨.operator .newline, _⟩ :: rest => if grouped then some rest else none
        | _ => none
      match rest? with
      | none => some (left, rest)
      | some rest =>
        let rest := if grouped then skipNewlines rest else rest
        if endsList rest || (rest.head?.map Located.token) = some (.operator .newline) then
          some (left, rest)
        else
          match readList grouped fuel rest with
          | none => none
          | some (right, rest) => some (.sequence left right, rest)

/-- The pipelines, put together by the signs for "and" and "or", that a token list begins
with. -/
def readAndOr : (fuel : Nat) → List Located → Option (Command × List Located)
  | 0, _ => none
  | fuel + 1, tokens =>
    match readPipeline fuel tokens with
    | none => none
    | some (left, rest) => readAndOrAfter fuel left rest

/-- The pipelines that are put together with a command. -/
def readAndOrAfter : (fuel : Nat) → Command → List Located → Option (Command × List Located)
  | 0, _, _ => none
  | fuel + 1, left, ⟨.operator .andIf, _⟩ :: rest =>
    match readPipeline fuel (skipNewlines rest) with
    | none => none
    | some (right, rest) => readAndOrAfter fuel (.both left right) rest
  | fuel + 1, left, ⟨.operator .orIf, _⟩ :: rest =>
    match readPipeline fuel (skipNewlines rest) with
    | none => none
    | some (right, rest) => readAndOrAfter fuel (.either left right) rest
  | _ + 1, left, rest => some (left, rest)

/-- The pipeline a token list begins with, negated after an exclamation mark. -/
def readPipeline : (fuel : Nat) → List Located → Option (Command × List Located)
  | 0, _ => none
  | fuel + 1, tokens =>
    let (isNegated, tokens) := afterNegation tokens
    match readCommand fuel tokens with
    | none => none
    | some (left, rest) =>
      match readPipelineAfter fuel left rest with
      | none => none
      | some (body, rest) => some (if isNegated then .negated body else body, rest)

/-- The commands that read what a command writes. -/
def readPipelineAfter :
    (fuel : Nat) → Command → List Located → Option (Command × List Located)
  | 0, _, _ => none
  | fuel + 1, left, ⟨.operator .bar, _⟩ :: rest =>
    match readCommand fuel (skipNewlines rest) with
    | none => none
    | some (right, rest) => readPipelineAfter fuel (.piped left right) rest
  | _ + 1, left, rest => some (left, rest)

/-- The group or simple command a token list begins with. -/
def readCommand : (fuel : Nat) → List Located → Option (Command × List Located)
  | 0, _ => none
  | fuel + 1, ⟨.operator .opening, line⟩ :: rest =>
    match readList true fuel rest with
    | some (body, ⟨.operator .closing, _⟩ :: rest) =>
      (readGroupRedirections rest).map fun (redirections, rest) =>
        (.grouped line true body redirections, rest)
    | _ => none
  | fuel + 1, ⟨.word word, line⟩ :: rest =>
    if plainText word = some "\x7b" then
      match readList true fuel rest with
      | some (body, ⟨.word last, _⟩ :: rest) =>
        if plainText last = some "\x7d" then
          (readGroupRedirections rest).map fun (redirections, rest) =>
            (body.redirected line redirections, rest)
        else
          none
      | _ => none
    else if (plainText word).any reserved.contains then
      none
    else
      readSimple line [] [] [] (⟨.word word, line⟩ :: rest)
  | _ + 1, tokens => readSimple ((tokens.head?.map Located.line).getD 0) [] [] [] tokens

end

/-- The commands of lines, and whether all of them could be parsed.  With each command it is
said whether the text ends with it, without a newline. -/
def readLines : (fuel : Nat) → List Located → List (Command × Bool) × Bool
  | 0, _ => ([], false)
  | fuel + 1, tokens =>
    match skipNewlines tokens with
    | [] => ([], true)
    | tokens =>
      match readList false (8 * tokens.length + 8) tokens with
      | some (command, []) => ([(command, true)], true)
      | some (command, ⟨.operator .newline, _⟩ :: rest) =>
        match readLines fuel rest with
        | (commands, complete) => ((command, false) :: commands, complete)
      | _ => ([], false)

/-- The commands of a command line, and whether all of it could be parsed; what comes after
the first line that could not is dropped. -/
def Command.ofLine (line : String) : List (Command × Bool) × Bool :=
  let tokens := tokens line.toList
  readLines (tokens.length + 1) tokens

end IncrementalBuild.Shell
