import IncrementalBuild.Text.Decimal

/-!
# The tokens of the shell

`tokens` cuts a command line into words, operators and redirections.  A word is a list of
parts, texts and parameters, each of which may be quoted: between single quotes everything
stands for itself, between double quotes parameters are still recognised, and a backslash
quotes the character after it.  A line that breaks off within quotes, or holds an expansion
that is not a parameter, ends in the token `broken`, which no command accepts.

A here-document is the text of the lines after the one that announces it, up to a line that
consists of its delimiter.  It is read like text between double quotes, unless a part of
the delimiter is quoted, and becomes the word after its redirection.
-/

namespace IncrementalBuild.Shell

/-- A part of a word.  A `misnamed` part is an expansion in braces without a name. -/
inductive Part
  | text (chars : List Char) (quoted : Bool)
  | parameter (name : String) (quoted : Bool)
  | misnamed
deriving DecidableEq, Repr

/-- A word as it is written. -/
abbrev Word : Type :=
  List Part

/-- An operator between commands. -/
inductive Operator
  | semicolon
  | ampersand
  | andIf
  | orIf
  | bar
  | opening
  | closing
  | newline
deriving DecidableEq, Repr

/-- What a redirection does: it writes a file anew, or adds to it, or reads it, or reads
and writes it, or makes one stream another, or reads a here-document. -/
inductive Direction
  | into
  | onto
  | outOf
  | within
  | joined
  | document
deriving DecidableEq, Repr

/-- A token of a command line.  `body` is a here-document where it stands in the text. -/
inductive Token
  | word (word : Word)
  | operator (operator : Operator)
  | redirection (stream : Nat) (direction : Direction)
  | body (word : Word)
  | broken
deriving DecidableEq, Repr

/-- A token and the number of the line that it ends in. -/
structure Located where
  token : Token
  line : Nat
deriving DecidableEq, Repr

/-- A character a name can begin with. -/
def isNameStart (c : Char) : Bool :=
  c.isAlpha || c = '_'

/-- A character of a name. -/
def isNameChar (c : Char) : Bool :=
  c.isAlphanum || c = '_'

/-- A name that a variable can have. -/
def isVariableName (name : String) : Bool :=
  name.toList.head?.any isNameStart && name.toList.all isNameChar

/-- A character that ends a word unless it is quoted. -/
def endsWord (c : Char) : Bool :=
  c = ' ' || c = '\t' || c = '\n' || c = ';' || c = '&' || c = '|' || c = '(' || c = ')'
    || c = '<' || c = '>'

/-- A character that is the name of a parameter. -/
def isParameterSign (c : Char) : Bool :=
  c.isDigit || c = '?' || c = '$' || c = '#' || c = '@' || c = '*' || c = '!' || c = '-'

/-- The part that a name in braces stands for. -/
def braced (name : List Char) (quoted : Bool) : Part :=
  let isName : Bool :=
    match name with
    | [] => false
    | [c] => isNameStart c || isParameterSign c
    | c :: cs => (isNameStart c && cs.all isNameChar) || (c :: cs).all Char.isDigit
  if isName then .parameter (String.ofList name) quoted else .misnamed

/-- The text up to the brace that closes an expansion, with expansions within it, and the
text after the brace. -/
def cutBraced : (depth : Nat) → List Char → Option (List Char × List Char)
  | _, [] => none
  | 0, '\x7d' :: cs => some ([], cs)
  | depth + 1, '\x7d' :: cs =>
    (cutBraced depth cs).map fun (inner, rest) => ('\x7d' :: inner, rest)
  | depth, '$' :: '\x7b' :: cs =>
    (cutBraced (depth + 1) cs).map fun (inner, rest) => ('$' :: '\x7b' :: inner, rest)
  | depth, c :: cs => (cutBraced depth cs).map fun (inner, rest) => (c :: inner, rest)

/-- The part that a dollar sign before a text begins, and the text after it; a dollar sign
before no name stands for itself. -/
def readParameter (quoted : Bool) : List Char → Option (Part × List Char)
  | '(' :: _ => none
  | '\x7b' :: cs =>
    (cutBraced 0 cs).map fun (name, rest) => (braced name quoted, rest)
  | c :: cs =>
    if isNameStart c then
      some (.parameter (String.ofList (c :: cs.takeWhile isNameChar)) quoted,
        cs.dropWhile isNameChar)
    else if isParameterSign c then
      some (.parameter (String.ofList [c]) quoted, cs)
    else
      some (.text ['$'] quoted, c :: cs)
  | [] => some (.text ['$'] quoted, [])

/-- The parts up to the sign that closes a quotation, the last first, and the text after
it; a quotation without a closing sign goes on to the end of the text. -/
def readQuoted (closing : Option Char) :
    (fuel : Nat) → List Part → List Char → Option (List Part × List Char)
  | 0, _, _ => none
  | _ + 1, parts, [] => if closing.isNone then some (parts, []) else none
  | _ + 1, _, '`' :: _ => none
  | fuel + 1, parts, '\\' :: '\n' :: cs => readQuoted closing fuel parts cs
  | fuel + 1, parts, '\\' :: c :: cs =>
    let chars := if c = '$' || c = '`' || c = '\\' || some c = closing then [c] else ['\\', c]
    readQuoted closing fuel (.text chars true :: parts) cs
  | fuel + 1, parts, '$' :: cs =>
    match readParameter true cs with
    | none => none
    | some (part, cs) => readQuoted closing fuel (part :: parts) cs
  | fuel + 1, parts, c :: cs =>
    if some c = closing then some (parts, cs)
    else readQuoted closing fuel (.text [c] true :: parts) cs

/-- The word a text begins with, added to parts read before, the last first, and the text
after it. -/
def readWord : (fuel : Nat) → List Part → List Char → Option (Word × List Char)
  | 0, _, _ => none
  | _ + 1, parts, [] => some (parts.reverse, [])
  | _ + 1, _, '`' :: _ => none
  | fuel + 1, parts, '\\' :: '\n' :: cs => readWord fuel parts cs
  | fuel + 1, parts, '\\' :: c :: cs => readWord fuel (.text [c] true :: parts) cs
  | fuel + 1, parts, '\'' :: cs =>
    match cs.dropWhile (· ≠ '\'') with
    | [] => none
    | _ :: rest => readWord fuel (.text (cs.takeWhile (· ≠ '\'')) true :: parts) rest
  | fuel + 1, parts, '"' :: cs =>
    match readQuoted (some '"') fuel (.text [] true :: parts) cs with
    | none => none
    | some (parts, cs) => readWord fuel parts cs
  | fuel + 1, parts, '$' :: cs =>
    match readParameter false cs with
    | none => none
    | some (part, cs) => readWord fuel (part :: parts) cs
  | fuel + 1, parts, c :: cs =>
    if endsWord c then some (parts.reverse, c :: cs)
    else readWord fuel (.text [c] false :: parts) cs

/-- The redirection sign a text begins with, and the text after it. -/
def readDirection : List Char → Option (Direction × List Char)
  | '>' :: '>' :: cs => some (.onto, cs)
  | '>' :: '&' :: cs => some (.joined, cs)
  | '>' :: '|' :: cs => some (.into, cs)
  | '>' :: cs => some (.into, cs)
  | '<' :: '<' :: cs => some (.document, cs)
  | '<' :: '&' :: cs => some (.joined, cs)
  | '<' :: '>' :: cs => some (.within, cs)
  | '<' :: cs => some (.outOf, cs)
  | _ => none

/-- The redirection a text begins with, and the text after it.  One digit in front names
the stream; otherwise a sign that points to the left means stream 0 and one that points to
the right stream 1. -/
def readRedirection : List Char → Option (Token × List Char)
  | c :: cs =>
    if Decimal.isDigit c then
      (readDirection cs).map fun (direction, rest) =>
        (.redirection (Decimal.digitValue c) direction, rest)
    else
      (readDirection (c :: cs)).map fun (direction, rest) =>
        (.redirection (if c = '<' then 0 else 1) direction, rest)
  | [] => none

/-- The token a text begins with, where no blank begins it, and the text after it. -/
def readToken (fuel : Nat) : List Char → Option (Token × List Char)
  | '\n' :: cs => some (.operator .newline, cs)
  | ';' :: ';' :: _ => none
  | ';' :: cs => some (.operator .semicolon, cs)
  | '&' :: '&' :: cs => some (.operator .andIf, cs)
  | '&' :: cs => some (.operator .ampersand, cs)
  | '|' :: '|' :: cs => some (.operator .orIf, cs)
  | '|' :: cs => some (.operator .bar, cs)
  | '(' :: cs => some (.operator .opening, cs)
  | ')' :: cs => some (.operator .closing, cs)
  | cs =>
    match readRedirection cs with
    | some (token, rest) => some (token, rest)
    | none =>
      match readWord fuel [] cs with
      | some ([], _) => none
      | some (word, rest) => some (.word word, rest)
      | none => none

/-- The text after the blanks that it begins with; a line that goes on on the next one counts as
one line. -/
def afterBlanks : List Char → List Char
  | ' ' :: cs | '\t' :: cs | '\\' :: '\n' :: cs => afterBlanks cs
  | cs => cs

/-! ### Here-documents -/

/-- A here-document that has been announced: its delimiter, whether its text stands for
itself, and whether tabs at the beginning of its lines are dropped. -/
structure Announced where
  delimiter : List Char
  literal : Bool
  indented : Bool
deriving DecidableEq, Repr

/-- The delimiter that a word states. -/
def Announced.ofWord (indented : Bool) (word : Word) : Announced where
  delimiter := word.flatMap fun part =>
    match part with
    | .text chars _ => chars
    | .parameter name _ => '$' :: name.toList
    | .misnamed => []
  literal := word.any fun part =>
    match part with
    | .text _ quoted => quoted
    | .parameter .. | .misnamed => false
  indented := indented

/-- The lines of a here-document, and the text after its delimiter. -/
def Announced.cut (announced : Announced) : (fuel : Nat) → List Char → List Char × List Char
  | 0, cs => ([], cs)
  | _ + 1, [] => ([], [])
  | fuel + 1, cs =>
    let line := cs.takeWhile (· ≠ '\n')
    let rest := cs.dropWhile (· ≠ '\n')
    let line := if announced.indented then line.dropWhile (· = '\t') else line
    if line = announced.delimiter then
      ([], rest.drop 1)
    else
      let (lines, after) := announced.cut fuel (rest.drop 1)
      (line ++ rest.take 1 ++ lines, after)

/-- The word that the lines of a here-document stand for. -/
def Announced.body (announced : Announced) (lines : List Char) : Option Word :=
  if announced.literal then some [.text lines true]
  else (readQuoted none (lines.length + 1) [] lines).map fun (parts, _) => parts.reverse

/-- The here-documents that a text begins with, and the text after them. -/
def readBodies : List Announced → List Char → List Token × List Char
  | [], cs => ([], cs)
  | announced :: rest, cs =>
    let (lines, cs) := announced.cut (cs.length + 1) cs
    let token := ((announced.body lines).map Token.body).getD .broken
    let (tokens, cs) := readBodies rest cs
    (token :: tokens, cs)

/-- Puts each here-document after the redirection that announces it. -/
def placeBodies : List Word → List Located → List Located
  | bodies, ⟨.redirection stream .document, line⟩ :: rest =>
    ⟨.redirection stream .document, line⟩ :: ⟨.word (bodies.head?.getD []), line⟩
      :: placeBodies bodies.tail rest
  | bodies, ⟨.body _, _⟩ :: rest => placeBodies bodies rest
  | bodies, located :: rest => located :: placeBodies bodies rest
  | _, [] => []

/-- The number of the line that a text ends in, of a number of lines, given the text after
it. -/
def lineBefore (lines : Nat) (rest : List Char) : Nat :=
  lines - rest.count '\n'

/-- The tokens of a text, the last of a number of lines, where here-documents have been
announced. -/
def readTokens (lines : Nat) : (fuel : Nat) → List Announced → List Char → List Located
  | 0, _, _ => [⟨.broken, lines⟩]
  | _ + 1, _, [] => []
  | fuel + 1, announced, ' ' :: cs => readTokens lines fuel announced cs
  | fuel + 1, announced, '\t' :: cs => readTokens lines fuel announced cs
  | fuel + 1, announced, '\\' :: '\n' :: cs => readTokens lines fuel announced cs
  | fuel + 1, announced, '#' :: cs => readTokens lines fuel announced (cs.dropWhile (· ≠ '\n'))
  | fuel + 1, announced, cs =>
    match readToken (cs.length + 1) cs with
    | none => [⟨.broken, lines⟩]
    | some (.operator .newline, rest) =>
      let line := lineBefore lines rest
      let (bodies, rest) := readBodies announced rest
      ⟨.operator .newline, line⟩ :: bodies.map (⟨·, line⟩) ++ readTokens lines fuel [] rest
    | some (.redirection stream .document, rest) =>
      let indented := rest.head? = some '-'
      let rest := afterBlanks (if indented then rest.drop 1 else rest)
      match rest.head?, readToken (rest.length + 1) rest with
      | some '#', _ => [⟨.broken, lines⟩]
      | _, some (.word word, rest) =>
        ⟨.redirection stream .document, lineBefore lines rest⟩
          :: readTokens lines fuel (announced ++ [.ofWord indented word]) rest
      | _, _ => [⟨.broken, lines⟩]
    | some (token, rest) =>
      ⟨token, lineBefore lines rest⟩ :: readTokens lines fuel announced rest

/-- The tokens of a command line. -/
def tokens (line : List Char) : List Located :=
  let tokens := readTokens (line.count '\n' + 1) (line.length + 1) [] line
  let bodies := tokens.filterMap fun located =>
    match located.token with
    | .body word => some word
    | _ => none
  placeBodies bodies tokens

end IncrementalBuild.Shell
