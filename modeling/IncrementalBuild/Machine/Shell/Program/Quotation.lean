/-!
# Names in error messages

Programs show a name in their messages such that a shell would read it as one word.  Bytes
that are not printable ASCII are written as escape sequences, in a part `$'…'` of the word.
`shown` always quotes the name, `shownIfNeeded` only where the shell would not read it as it
is, and `shownAsText` writes a text with escape sequences between quotation marks.
-/

namespace IncrementalBuild.Shell.Program

/-- A printable byte of ASCII. -/
def isPrintable (b : UInt8) : Bool :=
  32 ≤ b && b ≤ 126

/-- The escape sequence of a byte: a letter for some, and three octal digits for others. -/
def escapeSequence (b : UInt8) : String :=
  match b.toNat with
  | 7 => "\\a"
  | 8 => "\\b"
  | 9 => "\\t"
  | 10 => "\\n"
  | 11 => "\\v"
  | 12 => "\\f"
  | 13 => "\\r"
  | n => String.ofList ['\\', Nat.digitChar (n / 64), Nat.digitChar (n / 8 % 8),
      Nat.digitChar (n % 8)]

/-- A byte that means the same between double quotes as between single quotes. -/
def isPlainInQuotes (b : UInt8) (isFirst : Bool) : Bool :=
  let c := Char.ofNat b.toNat
  c.isAlphanum || " %+,-./:@]_'".toList.contains c || (isFirst && (c = '#' || c = '~'))

/-- The text between the quotes, where `escaping` says that the part before it consists of
escape sequences. -/
def shownBytes (escaping : Bool) : List UInt8 → String
  | [] => ""
  | b :: bytes =>
    if !isPrintable b then
      (if escaping then "" else "'$'") ++ escapeSequence b ++ shownBytes true bytes
    else if b = 39 then
      "'\\''" ++ shownBytes false bytes
    else
      (if escaping then "''" else "") ++ String.ofList [Char.ofNat b.toNat]
        ++ shownBytes false bytes

/-- A name between quotation marks.  If it holds an apostrophe and ends in an escape sequence,
it is written as if it continued one. -/
def shown (name : String) : String :=
  let bytes := name.toUTF8.toList
  let isPlain :=
    (bytes.take 1).all (isPlainInQuotes · true) && (bytes.drop 1).all (isPlainInQuotes · false)
  let startsEscaping := bytes.contains 39 && bytes.getLast?.any (!isPrintable ·)
  if bytes.contains 39 && isPlain then "\"" ++ name ++ "\""
  else "'" ++ shownBytes startsEscaping bytes ++ "'"

/-- Whether a shell would read a name as it is. -/
def isSelfEvident (name : String) : Bool :=
  let bytes := name.toUTF8.toList
  name ≠ "" && name ≠ "\x7b" && name ≠ "\x7d" && !name.startsWith "#" && !name.startsWith "~"
    && bytes.all fun b =>
      isPrintable b && !" !\"$&()*;<=>[^`|\\'?".toList.contains (Char.ofNat b.toNat)

/-- A name as it is written for a shell, between quotation marks if it needs them. -/
def shownInShell (name : String) : String :=
  if isSelfEvident name then name else shown name

/-- A name before a colon, between quotation marks if it needs them. -/
def shownIfNeeded (name : String) : String :=
  if name.toList.contains ':' then shown name else shownInShell name

/-- A text between quotation marks, with escape sequences for what is not printable. -/
def shownAsText (text : String) : String :=
  let written := text.toUTF8.toList.map fun b =>
    if b = 39 then "\\'"
    else if b = 92 then "\\\\"
    else if isPrintable b then String.ofList [Char.ofNat b.toNat]
    else escapeSequence b
  "'" ++ String.join written ++ "'"

end IncrementalBuild.Shell.Program
