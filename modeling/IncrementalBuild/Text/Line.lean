import IncrementalBuild.Text.Blank

/-!
# Lines

`lines` cuts a text after each line feed.  A line records its number, counted from one,
the offset of its first byte, its content, and the ending that was taken off the content:
a line feed, a carriage return and a line feed, or, on the last line of a text that does
not end in a line feed, nothing or a carriage return alone.  Only one carriage return is
taken off.
-/

namespace IncrementalBuild.Text

/-- What ends a line. -/
inductive Ending
  | none
  | carriageReturn
  | lineFeed
  | carriageReturnLineFeed
deriving DecidableEq, Repr

/-- The characters of an ending. -/
def Ending.chars : Ending → List Char
  | .none => []
  | .carriageReturn => ['\r']
  | .lineFeed => ['\n']
  | .carriageReturnLineFeed => ['\r', '\n']

/-- A line of a text. -/
structure Line where
  number : Nat
  offset : Nat
  content : List Char
  ending : Ending
deriving DecidableEq, Repr

/-- The line with the given text before its line feed, if `fed`, or before the end of the
text otherwise: a carriage return that ends this text belongs to the ending. -/
def Line.ofBody (number offset : Nat) (body : List Char) (fed : Bool) : Line :=
  if body.getLast? = some '\r' then
    ⟨number, offset, body.dropLast, if fed then .carriageReturnLineFeed else .carriageReturn⟩
  else
    ⟨number, offset, body, if fed then .lineFeed else .none⟩

/-- The lines of a text whose first line has the given number and offset. -/
def linesFrom (number offset : Nat) : List Char → List Line
  | [] => []
  | c :: cs =>
    let body := (c :: cs).takeWhile (· ≠ '\n')
    match h : (c :: cs).dropWhile (· ≠ '\n') with
    | [] => [.ofBody number offset body false]
    | _ :: rest =>
      .ofBody number offset body true :: linesFrom (number + 1) (offset + byteLength body + 1) rest
termination_by cs => cs.length
decreasing_by
  have hle := length_dropWhile_le (· ≠ '\n') (c :: cs)
  rw [h] at hle
  exact hle

/-- The lines of a text. -/
def lines (cs : List Char) : List Line :=
  linesFrom 1 0 cs

theorem Line.content_append_ending (number offset : Nat) (body : List Char) (fed : Bool) :
  (Line.ofBody number offset body fed).content
      ++ (Line.ofBody number offset body fed).ending.chars =
    if fed then body ++ ['\n'] else body
  := by
  unfold Line.ofBody
  split
  · next h =>
    obtain ⟨start, rfl⟩ := List.getLast?_eq_some_iff.1 h
    cases fed <;> simp [Ending.chars]
  · cases fed <;> simp [Ending.chars]

end IncrementalBuild.Text
