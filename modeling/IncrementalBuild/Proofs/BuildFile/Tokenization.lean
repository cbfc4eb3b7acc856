import IncrementalBuild.Proofs.BuildFile.BlockForm
import Mathlib.Data.List.Sort

/-!
# The words of a text are its runs

A run of a text is a stretch of characters that are not blank, between blanks or the ends of the
text.  Two runs of a text are the same, or there is a blank between them.

`words` reads a text from left to right, and wherever it is about to begin a word, a blank or the
beginning of the text parts what has been read from what remains.  So each word is a run; and as
each character that is not blank stands in a word, each run is a word.  `Tokenizes` says this of a
list of words, with the bytes that stand at their offsets and the text that they reach over.
-/

namespace IncrementalBuild.BuildFile

open Text

/-- A word is a run of a text, between what is before it and what is after it. -/
structure RunAt (cs left : List Char) (word : Word) (right : List Char) : Prop where
  stretch : Stretch cs ⟨word.offset, word.length⟩ left word.chars right
  nonempty : word.chars ≠ []
  solid : ∀ c ∈ word.chars, isBlank c = false
  begins : ∀ c ∈ left.getLast?, isBlank c = true
  ends : ∀ c ∈ right.head?, isBlank c = true

/-- A word is a run of a text: characters that are not blank, between blanks or the ends of the
text. -/
def IsRun (cs : List Char) (word : Word) : Prop :=
  ∃ left right, RunAt cs left word right

/-- A word ends before another begins, and there is something between them. -/
def Precedes (word next : Word) : Prop :=
  word.offset + word.length < next.offset

/-- The character `c` that comes after the characters `before` stands in a word. -/
def Holds (word : Word) (before : List Char) (c : Char) : Prop :=
  word.offset ≤ byteLength before ∧ byteLength before + c.utf8Size ≤ word.offset + word.length

/-- Words tokenize a text: they are its runs, in order.  The bytes of a word stand at its offset,
each character that is not blank stands in one word, and the words reach from the beginning of the
text that is trimmed to its end. -/
structure Tokenizes (text : String) (words : List Word) : Prop where
  ordered : words.Pairwise Precedes
  runs : ∀ word, word ∈ words ↔ IsRun text.toList word
  bytes : ∀ word ∈ words,
    text.toUTF8.extract word.offset (word.offset + word.length) = word.text.toUTF8
  held : ∀ before c after, text.toList = before ++ c :: after → isBlank c = false →
    ∃! word, word ∈ words ∧ Holds word before c
  trimmed : ∀ first ∈ words.head?, ∀ last ∈ words.getLast?,
    text.toUTF8.extract first.offset (last.offset + last.length)
      = (String.ofList (trim text.toList)).toUTF8

section

variable {cs before after left right under : List Char} {span : Span} {word next : Word} {c : Char}

/-! ### Bytes -/

theorem size_toUTF8_ofList (cs : List Char) :
  (String.ofList cs).toUTF8.size = byteLength cs
  := by
  rw [String.toUTF8_eq_toByteArray, String.size_toByteArray, String.utf8ByteSize_ofList,
    byteLength_eq_utf8Len]

/-- The bytes under a span are those of the characters under it. -/
theorem Stretch.bytes_eq {text : String} (h : Stretch text.toList span left under right) :
  text.toUTF8.extract span.offset (span.offset + span.length) = (String.ofList under).toUTF8
  := by
  have hbytes : text.toUTF8
      = (String.ofList left).toUTF8 ++ (String.ofList under).toUTF8
        ++ (String.ofList right).toUTF8 := by
    conv_lhs => rw [h.text_eq]
    simp only [String.toUTF8_eq_toByteArray, String.ofList_append, String.toByteArray_append]
  rw [hbytes, h.offset, h.length, ← size_toUTF8_ofList, ← size_toUTF8_ofList,
    ByteArray.append_assoc, ← Nat.add_zero (ByteArray.size _), Nat.add_assoc,
    ByteArray.extract_append_size_add, Nat.zero_add, ByteArray.extract_append_eq_left rfl]

/-! ### Runs -/

/-- A run is all that comes before the next blank. -/
theorem RunAt.takeWhile_eq (h : RunAt cs left word right) :
  (word.chars ++ right).takeWhile (!isBlank ·) = word.chars
  := by
  rw [List.takeWhile_append_of_pos (by simpa using h.solid)]
  cases right with
  | nil => simp
  | cons c right => simp [h.ends c rfl]

/-- Of two runs, the one that begins no later is the other, or ends before the blank in front of
the other. -/
theorem RunAt.eq_or_precedes {mid right' : List Char} (h : RunAt cs left word right)
    (h' : RunAt cs (left ++ mid) next right') :
  word = next ∨ Precedes word next
  := by
  have hoffset : word.offset = byteLength left := h.stretch.offset
  have hoffset' : next.offset = byteLength (left ++ mid) := h'.stretch.offset
  have hsplit : word.chars ++ right = mid ++ (next.chars ++ right') := by
    have heq := h.stretch.split.symm.trans h'.stretch.split
    simpa using heq
  cases mid using List.reverseRecOn with
  | nil =>
    left
    have hchars : word.chars = next.chars := by
      rw [← h.takeWhile_eq, hsplit, List.nil_append, h'.takeWhile_eq]
    rw [List.append_nil, ← hoffset] at hoffset'
    cases word
    cases next
    cases hchars
    cases hoffset'
    rfl
  | append_singleton mid d =>
    right
    have hd : isBlank d = true := h'.begins d (by simp)
    -- The run that begins first has no blank, so it ends before the one in front of the other.
    have hprefix : word.chars <+: mid := by
      rw [List.append_assoc] at hsplit
      rcases List.append_eq_append_iff.1 hsplit with ⟨rest, hrest, -⟩ | ⟨rest, hrest, hcons⟩
      · exact ⟨rest, hrest.symm⟩
      · cases rest with
        | nil => exact ⟨[], by simp [hrest]⟩
        | cons e rest =>
          obtain ⟨rfl, -⟩ := List.cons.inj hcons
          cases hd.symm.trans (h.solid d (by simp [hrest]))
    obtain ⟨rest, rfl⟩ := hprefix
    have hpos := d.utf8Size_pos
    rw [Precedes, hoffset, hoffset', Word.length]
    simp only [byteLength_append, byteLength_cons]
    omega

/-- Two runs of a text are the same, or there is a blank between them. -/
theorem IsRun.eq_or_apart (h : IsRun cs word) (h' : IsRun cs next) :
  word = next ∨ Precedes word next ∨ Precedes next word
  := by
  obtain ⟨left, right, h⟩ := h
  obtain ⟨left', right', h'⟩ := h'
  have hprefix : left <+: cs := ⟨word.chars ++ right, by rw [h.stretch.split, List.append_assoc]⟩
  have hprefix' : left' <+: cs :=
    ⟨next.chars ++ right', by rw [h'.stretch.split, List.append_assoc]⟩
  rcases List.prefix_or_prefix_of_prefix hprefix hprefix' with ⟨mid, rfl⟩ | ⟨mid, rfl⟩
  · exact (h.eq_or_precedes h').imp_right .inl
  · exact (h'.eq_or_precedes h).imp Eq.symm .inr

/-- A character stands in one run at most. -/
theorem IsRun.eq_of_holds (h : IsRun cs word) (h' : IsRun cs next) (hc : Holds word before c)
    (hc' : Holds next before c) :
  word = next
  := by
  have hpos := c.utf8Size_pos
  unfold Holds at hc hc'
  rcases h.eq_or_apart h' with heq | hprecedes | hprecedes
  · exact heq
  · unfold Precedes at hprecedes
    omega
  · unfold Precedes at hprecedes
    omega

/-! ### Words are runs -/

/-- Each word is a run of what has been read and what remains together, if a blank or an end of the
text parts the two. -/
theorem isRun_of_mem_wordsFrom {offset : Nat} (hoffset : offset = byteLength before)
    (hparted : (∀ c ∈ before.getLast?, isBlank c = true) ∨ ∀ c ∈ cs.head?, isBlank c = true)
    (h : word ∈ wordsFrom offset cs) :
  IsRun (before ++ cs) word
  := by
  fun_induction wordsFrom offset cs generalizing before with
  | case1 => cases h
  | case2 offset c cs hblank ih =>
    rw [List.append_cons]
    apply ih _ _ h
    · simp [hoffset]
    · left
      simpa using hblank
  | case3 offset c cs hblank run =>
    rename_i ih
    have hrun : c :: cs = run ++ cs.dropWhile (!isBlank ·) := by
      rw [List.cons_append, List.takeWhile_append_dropWhile]
    rw [hrun, ← List.append_assoc]
    rcases List.mem_cons.1 h with rfl | h
    · have hleft := hparted.resolve_right fun hhead => hblank (hhead c rfl)
      exact ⟨before, cs.dropWhile (!isBlank ·), ⟨rfl, hoffset, rfl⟩, List.cons_ne_nil _ _,
        fun _ => isBlank_of_mem_run hblank, hleft, isBlank_of_mem_head?⟩
    · apply ih _ (.inr isBlank_of_mem_head?) h
      rw [hoffset, byteLength_append]

theorem isRun_of_mem_words (h : word ∈ words cs) :
  IsRun cs word
  := by
  rw [← List.nil_append cs]
  apply isRun_of_mem_wordsFrom rfl (.inl (by simp)) h

/-! ### Runs are words -/

/-- Each character that is not blank stands in a word. -/
theorem exists_mem_wordsFrom (offset : Nat) (hsplit : cs = before ++ c :: after)
    (hc : isBlank c = false) :
  ∃ word ∈ wordsFrom offset cs, word.offset ≤ offset + byteLength before
    ∧ offset + byteLength before + c.utf8Size ≤ word.offset + word.length
  := by
  fun_induction wordsFrom offset cs generalizing before with
  | case1 => simp at hsplit
  | case2 offset d cs hblank ih =>
    cases before with
    | nil =>
      cases hsplit
      cases hc.symm.trans hblank
    | cons e before =>
      obtain ⟨rfl, htail⟩ := List.cons.inj hsplit
      obtain ⟨word, hword, hbegins, hends⟩ := ih htail
      rw [byteLength_cons]
      exact ⟨word, hword, by omega, by omega⟩
  | case3 offset d cs hblank run =>
    rename_i ih
    have hrun : run ++ cs.dropWhile (!isBlank ·) = before ++ c :: after := by
      rw [← hsplit, List.cons_append, List.takeWhile_append_dropWhile]
    rcases List.append_eq_append_iff.1 hrun with ⟨rest, rfl, hrest⟩ | ⟨rest, hrest, hcons⟩
    · obtain ⟨word, hword, hbegins, hends⟩ := ih hrest
      rw [byteLength_append]
      exact ⟨word, List.mem_cons_of_mem _ hword, by omega, by omega⟩
    · cases rest with
      | nil =>
        -- What follows the run would begin with a character that is not blank.
        rw [List.nil_append] at hcons
        have hblank : isBlank c = true := @isBlank_of_mem_head? cs c (by rw [← hcons]; rfl)
        cases hc.symm.trans hblank
      | cons e rest =>
        obtain ⟨rfl, -⟩ := List.cons.inj hcons
        refine ⟨⟨offset, run⟩, List.mem_cons_self, Nat.le_add_right _ _, ?_⟩
        rw [Word.length, hrest, byteLength_append, byteLength_cons]
        dsimp only
        omega

theorem exists_mem_words (hsplit : cs = before ++ c :: after) (hc : isBlank c = false) :
  ∃ word ∈ words cs, Holds word before c
  := by
  obtain ⟨word, hword, hbegins, hends⟩ := exists_mem_wordsFrom 0 hsplit hc
  rw [Nat.zero_add] at hbegins hends
  exact ⟨word, hword, hbegins, hends⟩

/-- The words of a text are its runs. -/
theorem mem_words_iff :
  word ∈ words cs ↔ IsRun cs word
  := by
  constructor
  · exact isRun_of_mem_words
  · intro h
    obtain ⟨left, right, hat⟩ := id h
    obtain ⟨c, rest, hchars⟩ := List.exists_cons_of_ne_nil hat.nonempty
    have hc : isBlank c = false := hat.solid c (by simp [hchars])
    have hsplit : cs = left ++ c :: (rest ++ right) := by simp [hat.stretch.split, hchars]
    obtain ⟨other, hother, hholds⟩ := exists_mem_words hsplit hc
    have hword : Holds word left c := by
      have hoffset : word.offset = byteLength left := hat.stretch.offset
      rw [Holds, Word.length, hchars, byteLength_cons]
      omega
    rwa [h.eq_of_holds (isRun_of_mem_words hother) hword hholds]

/-! ### The order of words -/

theorem le_offset_of_mem_wordsFrom {offset : Nat} (h : word ∈ wordsFrom offset cs) :
  offset ≤ word.offset
  := by
  obtain ⟨before, after, hsplit⟩ := List.append_of_mem h
  obtain ⟨left, -, -, hoffset, -⟩ := exists_of_wordsFrom hsplit
  omega

theorem pairwise_wordsFrom (offset : Nat) (cs : List Char) :
  (wordsFrom offset cs).Pairwise Precedes
  := by
  fun_induction wordsFrom offset cs with
  | case1 => exact .nil
  | case2 offset c cs hblank ih => exact ih
  | case3 offset c cs hblank run ih =>
    refine ih.cons fun next hnext => ?_
    -- What follows the run begins with a blank, and the other words are behind it.
    cases hdrop : cs.dropWhile (!isBlank ·) with
    | nil =>
      rw [hdrop, wordsFrom_nil] at hnext
      cases hnext
    | cons d rest =>
      have hd : isBlank d = true := @isBlank_of_mem_head? cs d (by simp [hdrop])
      rw [hdrop, wordsFrom_blank hd] at hnext
      have hle := le_offset_of_mem_wordsFrom hnext
      have hpos := d.utf8Size_pos
      rw [Precedes, Word.length]
      dsimp only
      omega

/-! ### From the first word to the last -/

theorem isBlank_of_wordsOf_eq_nil (h : wordsOf cs = []) :
  ∀ c ∈ cs, isBlank c = true
  := by
  intro c hc
  by_contra hblank
  obtain ⟨before, after, hsplit⟩ := List.append_of_mem hc
  obtain ⟨word, hword, -⟩ := exists_mem_words hsplit (Bool.eq_false_iff.2 hblank)
  rw [← map_text_wordsFrom 0, List.map_eq_nil_iff] at h
  rw [words, h] at hword
  cases hword

/-- The text without the blanks at its end ends with its last word. -/
theorem exists_trimEnd_eq {last : Word} (hlast : last ∈ (words cs).getLast?) :
  ∃ left, trimEnd cs = left ++ last.chars ∧ last.offset = byteLength left
  := by
  obtain ⟨init, hwords⟩ := List.getLast?_eq_some_iff.1 hlast
  obtain ⟨left, right, hsplit, hoffset, hne, -, hright⟩ := exists_of_wordsFrom hwords
  obtain ⟨_, _, hat⟩ := isRun_of_mem_words (List.mem_of_getLast? hlast)
  refine ⟨left, ?_, by omega⟩
  conv_lhs => rw [hsplit]
  rw [trimEnd_append_blank (isBlank_of_wordsOf_eq_nil hright)]
  apply trimEnd_eq_self
  rw [List.getLast?_append_of_ne_nil _ hne]
  exact fun c hc => hat.solid c (List.mem_of_getLast? hc)

/-- The first word of a text begins where the text that is trimmed begins, and the last word ends
where it ends. -/
theorem exists_stretch_trim {first last : Word} (hfirst : first ∈ (words cs).head?)
    (hlast : last ∈ (words cs).getLast?) :
  ∃ left right, Stretch cs ⟨first.offset, byteLength (trim cs)⟩ left (trim cs) right
    ∧ last.offset + last.length = first.offset + byteLength (trim cs)
  := by
  obtain ⟨rest, hwords⟩ := List.head?_eq_some_iff.1 hfirst
  have hbegins := offset_of_wordsFrom_eq_cons hwords
  rw [Nat.zero_add] at hbegins
  have htrim : trim cs ≠ [] := by
    apply trim_ne_nil
    rw [← map_text_wordsFrom 0, ← words, hwords]
    simp
  obtain ⟨right, hsplit, hright⟩ := exists_eq_append_trim cs
  refine ⟨cs.takeWhile isBlank, right, ⟨hsplit, hbegins, rfl⟩, ?_⟩
  obtain ⟨left, hlastEnd, hoffset⟩ := exists_trimEnd_eq hlast
  have htrimEnd : trimEnd cs = cs.takeWhile isBlank ++ trim cs := by
    conv_lhs => rw [hsplit]
    rw [trimEnd_append_blank hright]
    apply trimEnd_eq_self
    rw [List.getLast?_append_of_ne_nil _ htrim]
    exact isBlank_getLast?_trim
  calc last.offset + last.length
    _ = byteLength (trimEnd cs) := by rw [hlastEnd, byteLength_append, hoffset, Word.length]
    _ = first.offset + byteLength (trim cs) := by rw [htrimEnd, byteLength_append, hbegins]

end

/-- A text is tokenized by its words, and by no other list of words. -/
theorem tokenizes_iff (text : String) (tokens : List Word) :
  Tokenizes text tokens ↔ tokens = words text.toList
  := by
  constructor
  · intro h
    have hirrefl : Std.Irrefl Precedes := ⟨fun word hword => by
      unfold Precedes at hword
      omega⟩
    have hantisymm : Std.Antisymm Precedes := ⟨fun word next hword hnext => by
      unfold Precedes at hword hnext
      omega⟩
    apply h.ordered.eq_of_mem_iff (pairwise_wordsFrom 0 text.toList)
    intro word
    rw [h.runs, ← words, mem_words_iff]
  · rintro rfl
    constructor
    case ordered => exact pairwise_wordsFrom 0 text.toList
    case runs => exact fun word => mem_words_iff
    case bytes =>
      intro word hword
      obtain ⟨left, right, hat⟩ := isRun_of_mem_words hword
      exact hat.stretch.bytes_eq
    case held =>
      intro before c after hsplit hc
      obtain ⟨word, hword, hholds⟩ := exists_mem_words hsplit hc
      refine ⟨word, ⟨hword, hholds⟩, ?_⟩
      rintro other ⟨hother, hholds'⟩
      apply (isRun_of_mem_words hother).eq_of_holds (isRun_of_mem_words hword) hholds' hholds
    case trimmed =>
      intro first hfirst last hlast
      obtain ⟨left, right, hstretch, hends⟩ := exists_stretch_trim hfirst hlast
      rw [hends]
      exact hstretch.bytes_eq

example : words " é\u3000\tb ".toList = [⟨1, ['é']⟩, ⟨7, ['b']⟩] := by cbv

end IncrementalBuild.BuildFile
