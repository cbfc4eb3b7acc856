import IncrementalBuild.Proofs.BuildFile.Placement
import Mathlib.Data.List.Chain

/-!
# The lines of a text partition it

The lines of a text are numbered in order, each begins where the one before it ends, with the ending
that was taken off it, and the lines with their endings are together the text.  A text has as many
lines as line feeds, and one more if something is behind the last of them.  Line feeds are counted
as bytes here: in UTF-8 no other character has the byte of a line feed.
-/

namespace IncrementalBuild.BuildFile

open Text

/-- Lines partition a text.  Every line but the last ends with a line feed, and a carriage return
before the ending of a line belongs to it. -/
structure Partition (text : String) (lines : List Line) : Prop where
  numbers : lines.map (·.number) = List.range' 1 lines.length
  first : ∀ line ∈ lines.head?, line.offset = 0
  next : lines.IsChain fun line next =>
    next.offset = line.offset + byteLength line.content + byteLength line.ending.chars
  content : ∀ line ∈ lines, '\n' ∉ line.content
  fed : ∀ line ∈ lines.dropLast, line.ending = .lineFeed ∨ line.ending = .carriageReturnLineFeed
  returned : ∀ line ∈ lines, line.content.getLast? = some '\r' →
    line.ending = .carriageReturn ∨ line.ending = .carriageReturnLineFeed
  chars : lines.flatMap (fun line => line.content ++ line.ending.chars) = text.toList
  length : lines.length = text.toUTF8.data.toList.count 10
    + if text = "" ∨ text.toList.getLast? = some '\n' then 0 else 1

/-! ### Line feeds as bytes -/

theorem data_toUTF8 (text : String) :
  text.toUTF8.data.toList = text.toList.flatMap String.utf8EncodeChar
  := by
  have h := String.toByteArray_ofList (l := text.toList)
  rw [String.ofList_toList] at h
  rw [String.toUTF8_eq_toByteArray, h, List.utf8Encode, List.data_toByteArray]

theorem ten_ne_ofNat {n : Nat} (h : 128 ≤ n) (hlt : n < 256) :
  (10 : UInt8) ≠ UInt8.ofNat n
  := by
  intro heq
  have hnat := congrArg UInt8.toNat heq
  rw [UInt8.toNat_ofNat', Nat.mod_eq_of_lt hlt] at hnat
  have hten : (10 : UInt8).toNat = 10 := rfl
  omega

/-- The byte of a line feed is in the form of no other character. -/
theorem count_utf8EncodeChar (c : Char) :
  (String.utf8EncodeChar c).count 10 = if c = '\n' then 1 else 0
  := by
  by_cases hc : c = '\n'
  · rw [hc]
    decide
  · rw [if_neg hc, List.count_eq_zero]
    intro hmem
    unfold String.utf8EncodeChar at hmem
    dsimp only at hmem
    split at hmem
    · next hle =>
      have hbyte := congrArg UInt8.toNat (List.mem_singleton.1 hmem)
      rw [UInt8.toNat_ofNat', Nat.mod_eq_of_lt (by omega)] at hbyte
      exact hc (Char.toNat_inj.1 hbyte.symm)
    · -- All bytes of a longer form have their first bit set.
      split at hmem
      · simp only [List.mem_cons, List.not_mem_nil, or_false] at hmem
        rcases hmem with h | h <;> exact ten_ne_ofNat (by omega) (by omega) h
      · split at hmem
        · simp only [List.mem_cons, List.not_mem_nil, or_false] at hmem
          rcases hmem with h | h | h <;> exact ten_ne_ofNat (by omega) (by omega) h
        · simp only [List.mem_cons, List.not_mem_nil, or_false] at hmem
          rcases hmem with h | h | h | h <;> exact ten_ne_ofNat (by omega) (by omega) h

theorem count_toUTF8 (text : String) :
  text.toUTF8.data.toList.count 10 = text.toList.count '\n'
  := by
  rw [data_toUTF8]
  induction text.toList with
  | nil => rfl
  | cons c cs ih =>
    rw [List.flatMap_cons, List.count_append, ih, count_utf8EncodeChar, List.count_cons]
    simp only [beq_iff_eq]
    omega

/-! ### Lines -/

section

variable {number offset : Nat} {cs : List Char} {line : Line}

/-- Each line is a part of the text between line feeds, without the carriage return at its end. -/
theorem exists_eq_ofBody (h : line ∈ linesFrom number offset cs) :
  ∃ number offset body fed, line = .ofBody number offset body fed
  := by
  fun_induction linesFrom number offset cs with
  | case1 => cases h
  | case2 => exact ⟨_, _, _, _, List.mem_singleton.1 h⟩
  | case3 number offset c cs body d rest hdrop ih =>
    rcases List.mem_cons.1 h with rfl | h
    · exact ⟨_, _, _, _, rfl⟩
    · exact ih h

theorem ending_of_getLast? (h : line ∈ linesFrom number offset cs)
    (hreturn : line.content.getLast? = some '\r') :
  line.ending = .carriageReturn ∨ line.ending = .carriageReturnLineFeed
  := by
  obtain ⟨number, offset, body, fed, rfl⟩ := exists_eq_ofBody h
  rw [content_ofBody, dropReturn] at hreturn
  unfold Line.ofBody
  split
  · cases fed
    · exact .inl rfl
    · exact .inr rfl
  · next hbody =>
    rw [if_neg hbody] at hreturn
    exact absurd hreturn hbody

/-- A line that ends with a line feed has an ending with a line feed. -/
theorem ending_of_lineChars {body : List Char} (hcontent : '\n' ∉ line.content)
    (h : lineChars line = body ++ ['\n']) :
  line.ending = .lineFeed ∨ line.ending = .carriageReturnLineFeed
  := by
  have hmem : '\n' ∈ line.ending.chars := by
    have hmem : '\n' ∈ lineChars line := by simp [h]
    exact (List.mem_append.1 hmem).resolve_left hcontent
  cases hending : line.ending <;> rw [hending] at hmem <;> simp [Ending.chars] at hmem ⊢

/-- There are as many lines as line feeds, and one more if something is behind the last of them. -/
theorem length_linesFrom (number offset : Nat) (cs : List Char) :
  (linesFrom number offset cs).length
    = cs.count '\n' + if cs = [] ∨ cs.getLast? = some '\n' then 0 else 1
  := by
  fun_induction linesFrom number offset cs with
  | case1 => rfl
  | case2 number offset c cs body hdrop =>
    have hnot := notMem_of_dropWhile_eq_nil hdrop
    have hlast : ¬ (c :: cs = [] ∨ (c :: cs).getLast? = some '\n') := by
      rintro (h | h)
      · cases h
      · exact hnot (List.mem_of_getLast? h)
    rw [if_neg hlast, List.count_eq_zero.2 hnot]
    rfl
  | case3 number offset c cs body d rest hdrop ih =>
    have hsplit := eq_append_of_dropWhile_eq_cons hdrop
    have hlast : (c :: cs).getLast? = some (rest.getLast?.getD '\n') := by
      rw [hsplit, List.getLast?_append, List.getLast?_cons]
      rfl
    have hiff : (c :: cs = [] ∨ (c :: cs).getLast? = some '\n')
        ↔ (rest = [] ∨ rest.getLast? = some '\n') := by
      rw [hlast]
      cases hrest : rest.getLast? with
      | none => simp [List.getLast?_eq_none_iff.1 hrest]
      | some last =>
        have hne : rest ≠ [] := by
          rintro rfl
          cases hrest
        simp [hne]
    rw [List.length_cons, ih, count_of_dropWhile_eq_cons hdrop]
    simp only [hiff]
    omega

end

/-- The lines of a text partition it. -/
theorem partition_lines (text : String) :
  Partition text (lines text.toList)
  := by
  constructor
  case numbers => exact map_number_linesFrom 1 0 text.toList
  case first =>
    intro line hline
    obtain ⟨rest, hrest⟩ := List.head?_eq_some_iff.1 hline
    rw [← List.nil_append (line :: rest)] at hrest
    exact (offset_of_linesFrom hrest).1
  case next =>
    rw [List.isChain_iff_forall_rel_of_append_cons_cons]
    intro line next before after h
    have hline := (offset_of_linesFrom h).1
    rw [List.append_cons] at h
    have hnext := (offset_of_linesFrom h).1
    rw [hnext, hline, List.flatMap_append, List.flatMap_singleton, byteLength_append, lineChars,
      byteLength_append]
    omega
  case content => exact fun line => notMem_content_of_linesFrom
  case fed =>
    intro line hline
    have hne : lines text.toList ≠ [] := by
      intro h
      simp [h] at hline
    have hlines := (List.dropLast_concat_getLast hne).symm
    obtain ⟨body, hbody, -⟩ := (offset_of_linesFrom hlines).2 line hline
    apply ending_of_lineChars (notMem_content_of_linesFrom (List.dropLast_subset _ hline)) hbody
  case returned => exact fun line => ending_of_getLast?
  case chars => exact flatMap_lineChars_linesFrom 1 0 text.toList
  case length =>
    rw [count_toUTF8, lines, length_linesFrom]
    simp only [String.toList_eq_nil_iff]

end IncrementalBuild.BuildFile
