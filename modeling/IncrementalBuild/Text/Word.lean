import IncrementalBuild.Text.Blank

/-!
# Words

A word of a text is a maximal run of characters that are not blank.  `words` lists the
words of a text from left to right, each with its offset in bytes.
-/

namespace IncrementalBuild.Text

/-- A word and the offset of its first byte. -/
structure Word where
  offset : Nat
  chars : List Char
deriving DecidableEq, Repr

/-- The word as a string. -/
def Word.text (word : Word) : String :=
  String.ofList word.chars

/-- The number of bytes of the word. -/
def Word.length (word : Word) : Nat :=
  byteLength word.chars

/-- The words of a text whose first byte lies at `offset`. -/
def wordsFrom (offset : Nat) : List Char → List Word
  | [] => []
  | c :: cs =>
    if isBlank c then
      wordsFrom (offset + c.utf8Size) cs
    else
      let run := c :: cs.takeWhile (!isBlank ·)
      ⟨offset, run⟩ :: wordsFrom (offset + byteLength run) (cs.dropWhile (!isBlank ·))
termination_by cs => cs.length
decreasing_by
  · simp
  · have := length_dropWhile_le (!isBlank ·) cs
    simp only [List.length_cons]
    omega

/-- The words of a text. -/
def words (cs : List Char) : List Word :=
  wordsFrom 0 cs

theorem wordsFrom_nil (offset : Nat) :
  wordsFrom offset [] = []
  := by rw [wordsFrom]

theorem wordsFrom_blank {c : Char} (h : isBlank c = true) (offset : Nat) (cs : List Char) :
  wordsFrom offset (c :: cs) = wordsFrom (offset + c.utf8Size) cs
  := by rw [wordsFrom, if_pos h]

end IncrementalBuild.Text
