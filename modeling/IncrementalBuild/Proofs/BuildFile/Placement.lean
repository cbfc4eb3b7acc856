import IncrementalBuild.Proofs.BuildFile.Scanning
import Mathlib.Data.String.Basic

/-!
# Where lines and words stand

A `Stretch` of a text is what stands under a span, with the characters before it and after it.

The characters of the lines of a text, each with its ending, are together those of the text.
So the offset of a line is the number of bytes before it, and as every line but the last ends
with its only line feed, its number counts the line feeds before it.  A word stands likewise
at its offset, and what is before it and after it has the other words.
-/

namespace IncrementalBuild.BuildFile

open Text

/-! ### Stretches of a text -/

/-- What stands under a span of a text, and the characters before it and after it. -/
structure Stretch (cs : List Char) (span : Span) (left under right : List Char) : Prop where
  split : cs = left ++ under ++ right
  offset : span.offset = byteLength left
  length : span.length = byteLength under

/-- The text under a span. -/
def textUnder (text : String) (span : Span) : String :=
  String.Pos.Raw.extract text ⟨span.offset⟩ ⟨span.offset + span.length⟩

/-- The text before a span. -/
def textBefore (text : String) (span : Span) : String :=
  String.Pos.Raw.extract text 0 ⟨span.offset⟩

/-- A span begins and ends between characters of a text, one after the other. -/
structure IsRange (text : String) (span : Span) : Prop where
  begins : String.Pos.Raw.IsValid text ⟨span.offset⟩
  ends : String.Pos.Raw.IsValid text ⟨span.offset + span.length⟩
  nonempty : 0 < span.length

theorem byteLength_eq_utf8Len (cs : List Char) :
  byteLength cs = String.utf8Len cs
  := by
  induction cs with
  | nil => rfl
  | cons c cs ih =>
    rw [byteLength_cons, String.utf8Len_cons, ih]
    omega

theorem rawEndPos_ofList (cs : List Char) :
  (String.ofList cs).rawEndPos = ⟨byteLength cs⟩
  := by rw [String.rawEndPos, String.utf8ByteSize_ofList, byteLength_eq_utf8Len]

theorem isValid_of_append (left right : List Char) :
  String.Pos.Raw.IsValid (String.ofList (left ++ right)) ⟨byteLength left⟩
  := by
  apply String.Pos.Raw.isValid_iff_exists_append.2
  use String.ofList left, String.ofList right
  rw [String.ofList_append, rawEndPos_ofList]
  use rfl

namespace Stretch

section

variable {text : String} {span : Span} {left under right : List Char}
  (h : Stretch text.toList span left under right)

include h

theorem text_eq :
  text = String.ofList (left ++ under ++ right)
  := by rw [← h.split, String.ofList_toList]

theorem textUnder_eq :
  textUnder text span = String.ofList under
  := by
  rw [textUnder, h.offset, h.length, h.text_eq, byteLength_eq_utf8Len, byteLength_eq_utf8Len,
    String.extract_of_valid]

theorem textBefore_eq :
  textBefore text span = String.ofList left
  := by
  have hextract := String.extract_of_valid [] left (under ++ right)
  rw [List.nil_append, ← List.append_assoc, ← h.text_eq, String.utf8Len_nil, Nat.zero_add,
    ← byteLength_eq_utf8Len, ← h.offset] at hextract
  exact hextract

theorem isRange (hne : under ≠ []) :
  IsRange text span
  := by
  constructor
  case begins =>
    rw [h.text_eq, h.offset, List.append_assoc]
    apply isValid_of_append
  case ends =>
    rw [h.text_eq, h.offset, h.length, ← byteLength_append]
    apply isValid_of_append
  case nonempty =>
    obtain ⟨c, cs, rfl⟩ := List.exists_cons_of_ne_nil hne
    rw [h.length, byteLength_cons]
    have := c.utf8Size_pos
    omega

end

/-- A stretch of a part of a text is a stretch of the text. -/
theorem append {cs left under right : List Char} {span : Span}
    (h : Stretch cs span left under right)
    (before after : List Char) :
  Stretch (before ++ cs ++ after) ⟨byteLength before + span.offset, span.length⟩ (before ++ left)
    under (right ++ after)
  := by
  constructor
  case split => simp [h.split]
  case offset => rw [h.offset, byteLength_append]
  case length => exact h.length

end Stretch

/-! ### Lines -/

/-- The characters of a line, with those of its ending. -/
def lineChars (line : Line) : List Char :=
  line.content ++ line.ending.chars

section

variable {number offset : Nat} {cs : List Char} {line : Line} {before after : List Line}

theorem lineChars_ofBody (number offset : Nat) (body : List Char) (fed : Bool) :
  lineChars (.ofBody number offset body fed) = if fed then body ++ ['\n'] else body
  := Line.content_append_ending number offset body fed

@[simp]
theorem offset_ofBody (number offset : Nat) (body : List Char) (fed : Bool) :
  (Line.ofBody number offset body fed).offset = offset
  := by
  unfold Line.ofBody
  split <;> rfl

/-- The lines of a text are the text. -/
theorem flatMap_lineChars_linesFrom (number offset : Nat) (cs : List Char) :
  (linesFrom number offset cs).flatMap lineChars = cs
  := by
  fun_induction linesFrom number offset cs with
  | case1 => rfl
  | case2 number offset c cs body hdrop =>
    have hbody := List.takeWhile_append_dropWhile (p := (· ≠ '\n')) (l := c :: cs)
    rw [hdrop, List.append_nil] at hbody
    rw [List.flatMap_singleton, lineChars_ofBody]
    exact hbody
  | case3 number offset c cs body d rest hdrop ih =>
    rw [List.flatMap_cons, ih, lineChars_ofBody, if_pos rfl, List.append_assoc,
      List.singleton_append, ← eq_append_of_dropWhile_eq_cons hdrop]

/-- The offset of a line is the number of bytes of the lines before it, each of which ends with
its only line feed. -/
theorem offset_of_linesFrom (h : linesFrom number offset cs = before ++ line :: after) :
  line.offset = offset + byteLength (before.flatMap lineChars)
    ∧ ∀ other ∈ before, ∃ body, lineChars other = body ++ ['\n'] ∧ '\n' ∉ body
  := by
  fun_induction linesFrom number offset cs generalizing before with
  | case1 => simp at h
  | case2 =>
    cases before with
    | nil =>
      cases h
      simp
    | cons first before => simp at h
  | case3 number offset c cs body =>
    rename_i ih
    cases before with
    | nil =>
      cases h
      simp
    | cons first before =>
      obtain ⟨rfl, htail⟩ := List.cons.inj h
      obtain ⟨hoffset, hbefore⟩ := ih htail
      have hfirst := lineChars_ofBody number offset body true
      rw [if_pos rfl] at hfirst
      have hfeed : byteLength ['\n'] = 1 := by decide
      refine ⟨?_, List.forall_mem_cons.2 ⟨⟨body, hfirst, notMem_takeWhile⟩, hbefore⟩⟩
      rw [hoffset, List.flatMap_cons, hfirst, byteLength_append, byteLength_append]
      omega

theorem number_of_linesFrom (h : linesFrom number offset cs = before ++ line :: after) :
  line.number = number + before.length
  := by
  have hnumbers := map_number_linesFrom number offset cs
  rw [h] at hnumbers
  simpa using congrArg (·[before.length]?) hnumbers

theorem notMem_content_ofBody {body : List Char} (h : '\n' ∉ body) (number offset : Nat)
    (fed : Bool) :
  '\n' ∉ (Line.ofBody number offset body fed).content
  := by
  rw [content_ofBody, dropReturn]
  split
  · exact fun hmem => h (List.dropLast_subset _ hmem)
  · exact h

/-- No line has a line feed before its ending. -/
theorem notMem_content_of_linesFrom (h : line ∈ linesFrom number offset cs) :
  '\n' ∉ line.content
  := by
  fun_induction linesFrom number offset cs with
  | case1 => cases h
  | case2 =>
    rw [List.mem_singleton.1 h]
    apply notMem_content_ofBody notMem_takeWhile
  | case3 number offset c cs body d rest hdrop ih =>
    rcases List.mem_cons.1 h with rfl | h
    · apply notMem_content_ofBody notMem_takeWhile
    · apply ih h

/-- The line feeds before a line are as many as the lines before it. -/
theorem count_flatMap_lineChars (h : linesFrom number offset cs = before ++ line :: after) :
  (before.flatMap lineChars).count '\n' = before.length
  := by
  have hone : ∀ other ∈ before, (List.count '\n' ∘ lineChars) other = 1 := by
    intro other hother
    obtain ⟨body, hbody, hnot⟩ := (offset_of_linesFrom h).2 other hother
    rw [Function.comp_apply, hbody, List.count_append, List.count_eq_zero.2 hnot]
    rfl
  rw [List.count_flatMap, List.map_congr_left hone]
  simp

/-- What is before a line is nothing, or ends with a line feed. -/
theorem getLast?_flatMap_lineChars (h : linesFrom number offset cs = before ++ line :: after) :
  ∀ c ∈ (before.flatMap lineChars).getLast?, c = '\n'
  := by
  cases before using List.reverseRecOn with
  | nil => simp
  | append_singleton before last =>
    obtain ⟨body, hbody, -⟩ := (offset_of_linesFrom h).2 last (by simp)
    intro c hc
    rw [List.flatMap_append, List.flatMap_singleton, hbody, ← List.append_assoc,
      List.getLast?_concat] at hc
    exact (Option.some.inj hc).symm

end

/-! ### Words -/

/-- A word stands at its offset, between the words before it and those after it. -/
theorem exists_of_wordsFrom {offset : Nat} {cs : List Char} {word : Word} {before after : List Word}
    (h : wordsFrom offset cs = before ++ word :: after) :
  ∃ left right, cs = left ++ word.chars ++ right ∧ word.offset = offset + byteLength left
    ∧ word.chars ≠ [] ∧ wordsOf left = before.map Word.text ∧ wordsOf right = after.map Word.text
  := by
  fun_induction wordsFrom offset cs generalizing before with
  | case1 => simp at h
  | case2 offset c cs hblank ih =>
    obtain ⟨left, right, rfl, hoffset, hne, hleft, hright⟩ := ih h
    refine ⟨c :: left, right, rfl, ?_, hne, ?_, hright⟩
    · rw [hoffset, byteLength_cons]
      omega
    · rw [wordsOf_blank hblank, hleft]
  | case3 offset c cs hblank run =>
    rename_i ih
    have hall : c :: cs = run ++ cs.dropWhile (!isBlank ·) := by
      rw [List.cons_append, List.takeWhile_append_dropWhile]
    cases before with
    | nil =>
      obtain ⟨rfl, htail⟩ := List.cons.inj h
      refine ⟨[], _, hall, by simp, List.cons_ne_nil _ _, wordsOf_nil, ?_⟩
      rw [← htail, map_text_wordsFrom]
    | cons first before =>
      obtain ⟨rfl, htail⟩ := List.cons.inj h
      obtain ⟨left, right, hsplit, hoffset, hne, hleft, hright⟩ := ih htail
      refine ⟨run ++ left, right, ?_, ?_, hne, ?_, hright⟩
      · rw [hall, hsplit]
        simp
      · rw [hoffset, byteLength_append]
        omega
      · rw [wordsOf_append (List.cons_ne_nil _ _) (fun _ => isBlank_of_mem_run hblank), hleft]
        · rfl
        · intro d hd
          apply isBlank_of_mem_head?
          rw [hsplit, List.append_assoc, List.head?_append, Option.mem_def.1 hd]
          rfl

/-! ### The first word, and the text without the blanks at its ends -/

theorem wordsOf_eq_nil {cs : List Char} (h : ∀ c ∈ cs, isBlank c = true) :
  wordsOf cs = []
  := by
  induction cs with
  | nil => apply wordsOf_nil
  | cons c cs ih =>
    obtain ⟨hc, hcs⟩ := List.forall_mem_cons.1 h
    rw [wordsOf_blank hc, ih hcs]

/-- The first word stands after the blanks at the beginning. -/
theorem offset_of_wordsFrom_eq_cons {offset : Nat} {cs : List Char} {word : Word} {rest : List Word}
    (h : wordsFrom offset cs = word :: rest) :
  word.offset = offset + byteLength (cs.takeWhile isBlank)
  := by
  fun_induction wordsFrom offset cs with
  | case1 => cases h
  | case2 offset c cs hblank ih =>
    rw [ih h, List.takeWhile_cons_of_pos hblank, byteLength_cons]
    omega
  | case3 offset c cs hblank run ih =>
    rw [← (List.cons.inj h).1, List.takeWhile_cons_of_neg hblank]
    rfl

/-- A text that is trimmed stands in the text, between blanks. -/
theorem exists_eq_append_trim (cs : List Char) :
  ∃ right, cs = cs.takeWhile isBlank ++ trim cs ++ right ∧ ∀ c ∈ right, isBlank c = true
  := by
  refine ⟨((trimStart cs).reverse.takeWhile isBlank).reverse, ?_, ?_⟩
  · rw [List.append_assoc, trim, trimEnd, ← List.reverse_append, List.takeWhile_append_dropWhile,
      List.reverse_reverse, trimStart, List.takeWhile_append_dropWhile]
  · intro c hc
    exact List.mem_takeWhile_imp (List.mem_reverse.1 hc)

theorem trimEnd_append_blank {cs blank : List Char} (hblank : ∀ c ∈ blank, isBlank c = true) :
  trimEnd (cs ++ blank) = trimEnd cs
  := by
  have hreverse : ∀ c ∈ blank.reverse, isBlank c = true := fun c hc =>
    hblank c (List.mem_reverse.1 hc)
  rw [trimEnd, trimEnd, List.reverse_append, List.dropWhile_append_of_pos hreverse]

theorem trim_ne_nil {cs : List Char} (h : wordsOf cs ≠ []) :
  trim cs ≠ []
  := by
  intro htrim
  obtain ⟨right, hsplit, hright⟩ := exists_eq_append_trim cs
  rw [htrim, List.append_nil] at hsplit
  apply h
  apply wordsOf_eq_nil
  intro c hc
  rw [hsplit] at hc
  rcases List.mem_append.1 hc with hc | hc
  · exact List.mem_takeWhile_imp hc
  · exact hright c hc

/-! ### Rules -/

/-- What a malformation blames in a line: the stretch between `left` and `right`. -/
inductive Blames : Malformation → List Char → List Char → List Char → Prop
  | commandBeforeTarget (content : List Char) : Blames .commandBeforeTarget [] content []
  | missingColon (content : List Char) : Blames .missingColon [] content []
  | extraColon {left : List Char} (hleft : left.count ':' = 1) (right : List Char) :
    Blames .extraColon left [':'] right
  | emptyName {left right : List Char} (hleft : ':' ∉ left) (hright : ':' ∉ right) :
    Blames .emptyName left [':'] right
  | invalidName (left : List Char) (name : String) (right : List Char) :
    Blames (.invalidName name) left name.toList right

section

variable {content : List Char}

/-- The stretch that a flaw of a rule blames. -/
theorem blames_of_parse {flaw : Flaw} (hrule : isRuleLine content = true)
    (h : Rule.parse content = .error flaw) :
  ∃ left under right, Stretch content ⟨flaw.offset, flaw.length⟩ left under right
    ∧ under ≠ [] ∧ Blames flaw.kind left under right
  := by
  unfold Rule.parse at h
  dsimp only at h
  split at h
  · cases h
    refine ⟨[], content, [], ⟨by simp, rfl, rfl⟩, ?_, .missingColon content⟩
    rintro rfl
    cases hrule
  · next c tail hdrop =>
    have hsplit := eq_append_of_dropWhile_eq_cons hdrop
    have hhead : ':' ∉ content.takeWhile (· ≠ ':') := notMem_takeWhile
    generalize content.takeWhile (· ≠ ':') = head at h hsplit hhead
    split at h
    · next htail =>
      cases h
      have hne : tail.dropWhile (· ≠ ':') ≠ [] := fun hnil =>
        notMem_of_dropWhile_eq_nil hnil (by simpa using htail)
      obtain ⟨d, rest, hrest⟩ := List.exists_cons_of_ne_nil hne
      refine ⟨head ++ ':' :: tail.takeWhile (· ≠ ':'), [':'], rest, ⟨?_, ?_, rfl⟩, by simp,
        .extraColon ?_ rest⟩
      · conv_lhs => rw [hsplit, eq_append_of_dropWhile_eq_cons hrest]
        simp
      · have hsize : ':'.utf8Size = 1 := by decide
        dsimp only
        rw [byteLength_append, byteLength_cons]
        omega
      · rw [List.count_append, List.count_eq_zero.2 hhead, List.count_cons_self,
          List.count_eq_zero.2 notMem_takeWhile]
    · next htail =>
      split at h
      · cases h
        refine ⟨head, [':'], tail, ⟨by simp [hsplit], rfl, rfl⟩, by simp,
          .emptyName hhead (by simpa using htail)⟩
      · cases h
      · next first second rest hwords =>
        cases h
        obtain ⟨right, hright, -⟩ := exists_eq_append_trim head
        have hfirst := offset_of_wordsFrom_eq_cons hwords
        have hne : trim head ≠ [] := by
          apply trim_ne_nil
          rw [← map_text_wordsFrom 0, ← words, hwords]
          simp
        refine ⟨head.takeWhile isBlank, trim head, right ++ ':' :: tail, ⟨?_, ?_, rfl⟩, hne, ?_⟩
        · rw [← List.append_assoc, ← hright, hsplit]
        · rw [hfirst, Nat.zero_add]
        · have hblames := Blames.invalidName (head.takeWhile isBlank) (String.ofList (trim head))
            (right ++ ':' :: tail)
          rwa [String.toList_ofList] at hblames

variable {rule : Rule} (h : Rule.parse content = .ok rule)

include h

/-- A rule has one colon; its name is the word before it, and its dependencies are after it. -/
theorem exists_of_parse :
  ∃ head tail, content = head ++ ':' :: tail ∧ ':' ∉ head ∧ words head = [rule.name]
    ∧ rule.dependencies = wordsFrom (byteLength head + 1) tail
  := by
  unfold Rule.parse at h
  dsimp only at h
  split at h
  · cases h
  · next c tail hdrop =>
    split at h
    · cases h
    · split at h
      · cases h
      · next name hwords =>
        cases h
        exact ⟨_, tail, eq_append_of_dropWhile_eq_cons hdrop, notMem_takeWhile, hwords, rfl⟩
      · cases h

/-- The name of a rule stands before its other words. -/
theorem stretch_name_of_parse :
  ∃ left right, Stretch content ⟨rule.name.offset, rule.name.length⟩ left rule.name.chars right
    ∧ rule.name.chars ≠ [] ∧ wordsOf left = []
  := by
  obtain ⟨head, tail, rfl, -, hname, -⟩ := exists_of_parse h
  rw [words, ← List.nil_append [rule.name]] at hname
  obtain ⟨left, right, hsplit, hoffset, hne, hleft, -⟩ := exists_of_wordsFrom hname
  rw [Nat.zero_add] at hoffset
  exact ⟨left, right ++ ':' :: tail, ⟨by simp [hsplit], hoffset, rfl⟩, hne, hleft⟩

/-- A dependency of a rule stands after the dependencies before it. -/
theorem stretch_dependency_of_parse {before after : List Word} {word : Word}
    (hsplit : rule.dependencies = before ++ word :: after) :
  ∃ left right, Stretch content ⟨word.offset, word.length⟩ left word.chars right
    ∧ word.chars ≠ [] ∧ dependenciesOf left = before.map Word.text
    ∧ wordsOf right = after.map Word.text
  := by
  obtain ⟨head, tail, rfl, hhead, -, hdependencies⟩ := exists_of_parse h
  rw [hdependencies] at hsplit
  obtain ⟨left, right, rfl, hoffset, hne, hleft, hright⟩ := exists_of_wordsFrom hsplit
  refine ⟨head ++ ':' :: left, right, ⟨by simp, ?_, rfl⟩, hne, ?_, hright⟩
  · have hsize : ':'.utf8Size = 1 := by decide
    dsimp only
    rw [hoffset, byteLength_append, byteLength_cons]
    omega
  · rw [dependenciesOf_append hhead, hleft]

end

end IncrementalBuild.BuildFile
