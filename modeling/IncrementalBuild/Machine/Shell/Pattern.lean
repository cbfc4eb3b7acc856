import IncrementalBuild.FileTree.Basic
import IncrementalBuild.Machine.Shell.ByteClass

/-!
# Patterns for names

A field of a command can be a pattern for the names of files.  An asterisk matches any run
of bytes, a question mark any byte, and characters between brackets any byte of the ranges
and classes they state, or, after an exclamation mark, any other; a quoted character matches
only itself.  A dot at the beginning of a name is matched only by a dot.

`Glyph.expand` lists the paths that match a field.
-/

namespace IncrementalBuild.Shell

/-- A character of a field, and whether it has been quoted. -/
structure Glyph where
  char : Char
  quoted : Bool
deriving DecidableEq, Repr

/-- Bytes that are stated between brackets: those from one to another, or a class. -/
inductive Span
  | range (first last : UInt8)
  | named (byteClass : ByteClass)
deriving DecidableEq, Repr

/-- The place of a byte in the order of ranges, in which those of ASCII come last. -/
def rangeOrder (b : UInt8) : UInt8 :=
  b + 128

/-- Whether a byte is among those that are stated. -/
def Span.contains (span : Span) (b : UInt8) : Bool :=
  match span with
  | range first last => rangeOrder first ≤ rangeOrder b && rangeOrder b ≤ rangeOrder last
  | named byteClass => byteClass.contains b

/-- A part of a pattern. -/
inductive Atom
  | byte (value : UInt8)
  | anyOne
  | anyRun
  | oneOf (negated : Bool) (spans : List Span)
deriving DecidableEq, Repr

/-- Whether a part of a pattern matches a byte. -/
def Atom.accepts (atom : Atom) (b : UInt8) : Bool :=
  match atom with
  | .byte value => b = value
  | .anyOne => true
  | .anyRun => false
  | .oneOf negated spans => spans.any (·.contains b) != negated

/-- Whether a pattern matches bytes. -/
def Atom.run : List Atom → List UInt8 → Bool
  | [], bytes => bytes.isEmpty
  | .anyRun :: atoms, [] => run atoms []
  | .anyRun :: atoms, b :: bytes => run atoms (b :: bytes) || run (.anyRun :: atoms) bytes
  | _ :: _, [] => false
  | atom :: atoms, b :: bytes => atom.accepts b && run atoms bytes
termination_by atoms bytes => atoms.length + bytes.length

namespace Glyph

/-- A character that is not quoted and has a meaning in a pattern. -/
def isMeta (glyph : Glyph) : Bool :=
  !glyph.quoted && (glyph.char = '*' || glyph.char = '?' || glyph.char = '[')

/-- Whether characters between slashes make a pattern: a bracket does only if it is closed
after at least one character. -/
def isPattern : List Glyph → Bool
  | [] => false
  | glyph :: rest =>
    let isOpen := glyph = ⟨'[', false⟩
    let inner := if rest.head? = some ⟨'!', false⟩ then rest.drop 1 else rest
    (glyph.isMeta && (!isOpen || (inner.drop 1).contains ⟨']', false⟩)) || isPattern rest

/-- Characters in which a backslash that is not quoted, which can only come from the value of
a parameter, quotes the character after it. -/
def unescaped : List Glyph → List Glyph
  | ⟨'\\', false⟩ :: glyph :: rest => ⟨glyph.char, true⟩ :: unescaped rest
  | glyph :: rest => glyph :: unescaped rest
  | [] => []

/-- The text of characters. -/
def text (glyphs : List Glyph) : String :=
  String.ofList (glyphs.map Glyph.char)

/-- The bytes of a character. -/
def bytes (glyph : Glyph) : List UInt8 :=
  (String.ofList [glyph.char]).toUTF8.toList

/-- The class that characters name between colons and before a bracket, and how many
characters that takes. -/
def readClass (glyphs : List Glyph) : Option (ByteClass × Nat) :=
  ByteClass.table.findSome? fun (name, byteClass) =>
    let written := (':' :: name.toList ++ [':', ']']).map (⟨·, false⟩ : Char → Glyph)
    if written.isPrefixOf glyphs then some (byteClass, written.length) else none

/-- What the characters between brackets state, up to a number of them, and the characters
after the closing bracket; a bracket that comes first is one of them. -/
def readSpans : (fuel : Nat) → (isFirst : Bool) → List Glyph → Option (List Span × List Glyph)
  | 0, _, _ | _, _, [] => none
  | fuel + 1, isFirst, glyph :: rest =>
    let single := glyph.bytes.map fun b => Span.range b b
    if glyph = ⟨']', false⟩ && !isFirst then
      some ([], rest)
    else
      match if glyph = ⟨'[', false⟩ then readClass rest else none with
      | some (byteClass, length) =>
        (readSpans fuel false (rest.drop length)).map fun (spans, rest) =>
          (.named byteClass :: spans, rest)
      | none =>
        match rest with
        | ⟨'-', false⟩ :: last :: after =>
          if last = ⟨']', false⟩ then
            (readSpans fuel false rest).map fun (spans, rest) => (single ++ spans, rest)
          else
            let bounds := (glyph.bytes.getLast?.toList.zip last.bytes).map fun (first, last) =>
              Span.range first last
            let others := (single.dropLast ++ (last.bytes.drop 1).map fun b => Span.range b b)
            (readSpans fuel false after).map fun (spans, rest) =>
              (bounds ++ others ++ spans, rest)
        | rest => (readSpans fuel false rest).map fun (spans, rest) => (single ++ spans, rest)

/-- The pattern that characters state. -/
def atoms : (fuel : Nat) → List Glyph → List Atom
  | 0, _ | _, [] => []
  | fuel + 1, glyph :: rest =>
    if !glyph.isMeta then
      glyph.bytes.map Atom.byte ++ atoms fuel rest
    else if glyph.char = '*' then
      .anyRun :: atoms fuel rest
    else if glyph.char = '?' then
      .anyOne :: atoms fuel rest
    else
      let negated := rest.head? = some ⟨'!', false⟩
      match readSpans (rest.length + 1) true (if negated then rest.drop 1 else rest) with
      | some (spans, rest) => .oneOf negated spans :: atoms fuel rest
      | none => .byte 91 :: atoms fuel rest

/-- The characters between slashes. -/
def components : List Glyph → List (List Glyph)
  | [] => [[]]
  | glyph :: rest =>
    if glyph.char = '/' then
      [] :: components rest
    else
      match components rest with
      | [] => [[glyph]]
      | component :: more => (glyph :: component) :: more

/-- The names in the directory of a path that match a component. -/
def namesMatching (tree : FileTree) (here : Place) (directory : String)
    (component : List Glyph) : List String :=
  match tree.directoryAt here (if directory = "" then "." else directory) with
  | .error _ => []
  | .ok place =>
    let pattern := atoms (component.length + 1) component
    let isHidden := (component.head?.map Glyph.char) = some '.'
    let names := (if isHidden then [".", ".."] else []) ++ tree.namesIn place
    names.filter fun name =>
      (isHidden || !name.startsWith ".") && Atom.run pattern name.toUTF8.toList

/-- The paths that begin with a text and go on as components say. -/
def pathsMatching (tree : FileTree) (here : Place) (start : String) :
    List (List Glyph) → List String
  | [] => if (tree.linkEntryAt here start).isOk then [start] else []
  | component :: rest =>
    let slash := if rest.isEmpty then "" else "/"
    if isPattern component then
      (namesMatching tree here start component).flatMap fun name =>
        pathsMatching tree here (start ++ name ++ slash) rest
    else
      pathsMatching tree here (start ++ text component ++ slash) rest

/-- The paths that a field stands for, in their order: those that match it, or the text of
the field if it is no pattern or nothing matches it. -/
def expand (tree : FileTree) (here : Place) (field : List Glyph) : List String :=
  let components := components (unescaped field)
  let found :=
    if components.any isPattern then
      (pathsMatching tree here "" components).mergeSort fun path other =>
        decide (path ≤ other)
    else
      []
  if found.isEmpty then [text field] else found

end Glyph

end IncrementalBuild.Shell
