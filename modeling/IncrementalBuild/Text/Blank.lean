/-!
# Blank characters and byte lengths

`isBlank` holds of the characters with the Unicode property White_Space, and of no
others.  `trim` removes the blank characters at both ends of a text.  A text is here a
list of characters; `byteLength` is the number of bytes of its UTF-8 form, the unit in
which every offset and length of this library is given.
-/

namespace IncrementalBuild.Text

/-- The ranges of code points with the property White_Space, both ends included. -/
def blankRanges : List (Nat × Nat) :=
  [(0x9, 0xD), (0x20, 0x20), (0x85, 0x85), (0xA0, 0xA0), (0x1680, 0x1680), (0x2000, 0x200A),
    (0x2028, 0x2029), (0x202F, 0x202F), (0x205F, 0x205F), (0x3000, 0x3000)]

/-- Membership of a character in one of the `blankRanges`. -/
def isBlank (c : Char) : Bool :=
  blankRanges.any fun range => range.1 ≤ c.toNat && c.toNat ≤ range.2

/-- The text without the blank characters it begins with. -/
def trimStart (cs : List Char) : List Char :=
  cs.dropWhile isBlank

/-- The text without the blank characters it ends with. -/
def trimEnd (cs : List Char) : List Char :=
  (cs.reverse.dropWhile isBlank).reverse

/-- The text without the blank characters at its two ends. -/
def trim (cs : List Char) : List Char :=
  trimEnd (trimStart cs)

/-- The number of bytes of the UTF-8 form of a text. -/
def byteLength (cs : List Char) : Nat :=
  cs.foldl (fun total c => total + c.utf8Size) 0

theorem isBlank_space :
  isBlank ' ' = true
  := by decide

theorem isBlank_tab :
  isBlank '\t' = true
  := by decide

private theorem foldl_utf8Size (cs : List Char) (start : Nat) :
  cs.foldl (fun total c => total + c.utf8Size) start = start + byteLength cs
  := by
  induction cs generalizing start with
  | nil => rfl
  | cons c cs ih =>
    rw [byteLength, List.foldl_cons, List.foldl_cons, ih, ih (0 + c.utf8Size)]
    omega

@[simp]
theorem byteLength_nil :
  byteLength [] = 0
  := rfl

@[simp]
theorem byteLength_cons (c : Char) (cs : List Char) :
  byteLength (c :: cs) = c.utf8Size + byteLength cs
  := by
  rw [byteLength, List.foldl_cons, foldl_utf8Size]
  omega

@[simp]
theorem byteLength_append (cs ds : List Char) :
  byteLength (cs ++ ds) = byteLength cs + byteLength ds
  := by
  induction cs with
  | nil => simp
  | cons c cs ih =>
    rw [List.cons_append, byteLength_cons, byteLength_cons, ih]
    omega

/-- Dropping a run from the front of a list does not make it longer. -/
theorem length_dropWhile_le {α : Type} (p : α → Bool) (xs : List α) :
  (xs.dropWhile p).length ≤ xs.length
  := by
  induction xs with
  | nil => simp
  | cons x xs ih =>
    rw [List.dropWhile_cons]
    split
    · exact Nat.le_succ_of_le ih
    · exact Nat.le_refl _

end IncrementalBuild.Text
