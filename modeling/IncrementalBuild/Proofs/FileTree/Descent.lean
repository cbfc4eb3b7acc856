import IncrementalBuild.FileTree.Basic

/-!
# Paths that lead through a directory

A relative path may lead from one place to another through directories only,
`FileTree.StandsAt`.  Then a path that is read from it, `Path.join`, is resolved from the first
place as it is from the second one: the names of the first path are walked, and the walk goes on
from there.
-/

namespace IncrementalBuild

/-! ### The pieces of a path -/

namespace Path

theorem pieces_ne_nil (cs : List Char) :
  pieces cs ≠ []
  := by
  cases cs with
  | nil => simp [pieces]
  | cons c cs =>
    rw [pieces]
    split
    · simp
    · split <;> simp

/-- The pieces before a slash, and those after it. -/
theorem pieces_append (front back : List Char) :
  pieces (front ++ '/' :: back) = pieces front ++ pieces back
  := by
  induction front with
  | nil => simp [pieces]
  | cons c front ih =>
    rw [List.cons_append, pieces, pieces, ih]
    split
    · rfl
    · cases hpieces : pieces front with
      | nil => cases pieces_ne_nil front hpieces
      | cons piece rest => rfl

theorem join_of_isAbsolute {path : String} (h : isAbsolute path = true) (directory : String) :
  join directory path = path
  := by simp [join, h]

end Path

namespace FileTree

open IncrementalBuild.Path

/-- The names on a path. -/
def namesOf (path : String) : List String :=
  ((pieces path.toList).filter (· ≠ [])).map String.ofList

/-- What is to be walked for a path from a directory: its names; a slash at the end, and an empty
path, ask for a directory. -/
def stepsWithin (path : String) : List String :=
  if (pieces path.toList).getLast? = some [] then namesOf path ++ ["."] else namesOf path

/-- A relative path leads from one place to another, which is that of a directory, through
directories only. -/
structure StandsAt (tree : FileTree) (here : Place) (directory : String) (there : Place) :
    Prop where
  relative : isAbsolute directory = false
  sound : pathFault? directory = none
  leads : ∃ time, tree.walk true 0 here (namesOf directory) = .ok (there, some (.directory time))

variable {tree : FileTree} {here there : Place} {directory path : String} {names : List String}
  {entry : Entry} {links : Nat}

/-! ### Walks -/

/-- A walk through no link can be gone on with. -/
theorem walk_append (h : tree.walk true 0 here names = .ok (there, some entry)) (links : Nat)
    (rest : List String) :
  tree.walk true links here (names ++ rest) = tree.walk true links there rest
  := by
  induction names generalizing here with
  | nil =>
    rw [walk] at h
    split at h
    · cases h
    · cases h
      rfl
  | cons name names ih =>
    rw [walk] at h
    rw [List.cons_append, walk]
    cases hhere : tree.entries[here]? with
    | none =>
      simp only [hhere] at h ⊢
      split at h
      · next hup =>
        rw [if_pos hup]
        apply ih h
      · cases h
    | some found =>
      simp only [hhere] at h ⊢
      split at h
      · cases h
      next hdirectory =>
      rw [if_neg hdirectory]
      split at h
      · next hdot =>
        rw [if_pos hdot]
        apply ih h
      next hdot =>
      rw [if_neg hdot]
      split at h
      · next hup =>
        rw [if_pos hup]
        apply ih h
      next hup =>
      rw [if_neg hup]
      split at h
      · cases h
      next hshort =>
      rw [if_neg hshort]
      cases hchild : tree.entries[name :: here]? with
      | none =>
        simp only [hchild] at h
        split at h <;> cases h
      | some child =>
        simp only [hchild] at h ⊢
        cases child with
        | link target time => simp at h
        | file number => apply ih h
        | directory time => apply ih h
        | device device time => apply ih h

/-- Where a walk ends with an entry, this entry is there. -/
theorem getElem?_of_walk (h : tree.walk true links here names = .ok (there, some entry)) :
  tree.entries[there]? = some entry
  := by
  fun_induction walk tree true links here names <;> simp_all

theorem walk_dot {time : Stamp} (h : tree.entries[there]? = some (.directory time)) (links : Nat)
    (rest : List String) :
  tree.walk true links there ("." :: rest) = tree.walk true links there rest
  := by
  rw [walk, h]
  rfl

/-! ### Joining paths -/

theorem eq_none_of_pathFault? (h : pathFault? path = none) :
  path.toList.contains '\x00' = false ∧ path ≠ ""
  := by
  unfold pathFault? at h
  split at h
  · cases h
  next hnul =>
  split at h
  · cases h
  next hempty => exact ⟨Bool.eq_false_iff.2 hnul, hempty⟩

theorem pathFault?_eq (hempty : path ≠ "") (hshort : path.utf8ByteSize ≤ maxPathLength) :
  pathFault? path = if path.toList.contains '\x00' then some .nulInName else none
  := by simp only [pathFault?, if_neg hempty, if_neg (Nat.not_lt_of_le hshort)]

theorem namesOf_ne_nil (hrelative : isAbsolute path = false) (hempty : path ≠ "") :
  namesOf path ≠ []
  := by
  cases hpath : path.toList with
  | nil => cases hempty (String.toList_eq_nil_iff.1 hpath)
  | cons c cs =>
    have hslash : c ≠ '/' := by simpa [isAbsolute, hpath] using hrelative
    rw [namesOf, hpath, pieces, if_neg hslash]
    split <;> simp

theorem steps_eq_stepsWithin (hrelative : isAbsolute path = false) (hempty : path ≠ "") :
  steps path = stepsWithin path
  := by
  have hnames := List.isEmpty_eq_false_iff.2 (namesOf_ne_nil hrelative hempty)
  have hsteps : steps path
      = if (pieces path.toList).getLast? = some [] && !(namesOf path).isEmpty then
          namesOf path ++ ["."]
        else
          namesOf path := rfl
  rw [hsteps, hnames]
  simp [stepsWithin]

/-- A relative path that is read from another one comes after it and a slash. -/
theorem exists_toList_join (hempty : directory ≠ "") (hrelative : isAbsolute path = false) :
  ∃ front, (join directory path).toList = front ++ '/' :: path.toList ∧
    (pieces front).filter (· ≠ []) = (pieces directory.toList).filter (· ≠ [])
  := by
  simp only [join, hrelative, Bool.false_or, hempty, decide_false, Bool.false_eq_true, if_false]
  split
  · next hlast =>
    obtain ⟨front, hfront⟩ := List.getLast?_eq_some_iff.1 hlast
    refine ⟨front, ?_, ?_⟩
    · rw [String.toList_append, hfront, List.append_assoc]
      rfl
    · rw [hfront, pieces_append]
      simp [pieces]
  · refine ⟨directory.toList, ?_, rfl⟩
    simp

theorem stepsWithin_join (hempty : directory ≠ "") (hrelative : isAbsolute path = false) :
  stepsWithin (join directory path) = namesOf directory ++ stepsWithin path
  := by
  obtain ⟨front, hjoin, hfront⟩ := exists_toList_join hempty hrelative
  have hlast : (pieces front ++ pieces path.toList).getLast? = (pieces path.toList).getLast? := by
    rw [List.getLast?_append, List.getLast?_eq_some_getLast (pieces_ne_nil path.toList)]
    rfl
  simp only [stepsWithin, namesOf, hjoin, pieces_append, hlast, List.filter_append, hfront,
    List.map_append]
  split
  · apply List.append_assoc
  · rfl

theorem isAbsolute_join (hdirectory : isAbsolute directory = false) (hempty : directory ≠ "")
    (hrelative : isAbsolute path = false) :
  isAbsolute (join directory path) = false ∧ join directory path ≠ ""
  := by
  obtain ⟨c, cs, hcs⟩ := List.exists_cons_of_ne_nil (mt String.toList_eq_nil_iff.1 hempty)
  have hjoin : ∃ rest, join directory path = directory ++ rest := by
    simp only [join, hrelative, Bool.false_or, hempty, decide_false, Bool.false_eq_true, if_false,
      String.append_assoc]
    split
    · exact ⟨_, rfl⟩
    · exact ⟨_, rfl⟩
  obtain ⟨rest, hrest⟩ := hjoin
  rw [hrest]
  constructor
  · simpa [isAbsolute, hcs] using hdirectory
  · simp [hempty]

theorem contains_join (hdirectory : directory.toList.contains '\x00' = false) (path : String) :
  (join directory path).toList.contains '\x00' = path.toList.contains '\x00'
  := by
  simp only [List.contains_eq_mem, decide_eq_false_iff_not] at hdirectory
  unfold join
  split
  · rfl
  · split <;> simp [hdirectory]

/-- What is read from the current directory has no longer a path than what is read from another
one. -/
theorem utf8ByteSize_join_dot_le (hdirectory : isAbsolute directory = false)
    (hempty : directory ≠ "") (path : String) :
  (join "." path).utf8ByteSize ≤ (join directory path).utf8ByteSize
  := by
  cases hpath : isAbsolute path with
  | true =>
    apply Nat.le_of_eq
    rw [join_of_isAbsolute hpath, join_of_isAbsolute hpath]
  | false =>
    have hpos : directory.utf8ByteSize ≠ 0 := by simpa using hempty
    have hdot : join "." path = "." ++ "/" ++ path := by simp [join, hpath]
    have hone : (".".utf8ByteSize) = 1 := rfl
    have hslash : ("/".utf8ByteSize) = 1 := rfl
    rw [hdot, String.utf8ByteSize_append, String.utf8ByteSize_append, hone, hslash]
    simp only [join, hpath, Bool.false_or, hempty, decide_false, Bool.false_eq_true, if_false]
    split
    · next hlast =>
      obtain ⟨front, hfront⟩ := List.getLast?_eq_some_iff.1 hlast
      have hsplit : directory = String.ofList front ++ "/" := by
        rw [← String.toList_inj, hfront]
        simp
      have hfrontpos : (String.ofList front).utf8ByteSize ≠ 0 := by
        rintro hzero
        have hnil : front = [] := by simpa using hzero
        rw [isAbsolute, hfront, hnil] at hdirectory
        cases hdirectory
      rw [hsplit, String.utf8ByteSize_append, String.utf8ByteSize_append, hslash]
      omega
    · rw [String.utf8ByteSize_append, String.utf8ByteSize_append, hslash]
      omega

theorem utf8ByteSize_le_join (directory path : String) :
  path.utf8ByteSize ≤ (join directory path).utf8ByteSize
  := by
  unfold join
  split
  · apply Nat.le_refl
  · split
    · rw [String.utf8ByteSize_append]
      omega
    · rw [String.utf8ByteSize_append]
      omega

/-! ### Resolving paths -/

/-- What a path leads to that is read from a directory. -/
def reach (tree : FileTree) (there : Place) (path : String) :
    Except SystemError (Place × Option Entry) :=
  if path.toList.contains '\x00' then
    .error .nulInName
  else if isAbsolute path then
    tree.walk true maxLinks [] (steps path)
  else
    tree.walk true maxLinks there (stepsWithin path)

theorem resolve_eq_reach (tree : FileTree) (there : Place) (hempty : path ≠ "")
    (hshort : path.utf8ByteSize ≤ maxPathLength) :
  tree.resolve true there path = tree.reach there path
  := by
  rw [resolve, pathFault?_eq hempty hshort, reach]
  split
  · next e hfault =>
    split at hfault
    · next hnul =>
      cases hfault
      rw [if_pos hnul]
    · cases hfault
  · next hfault =>
    split at hfault
    · cases hfault
    · next hnul =>
      rw [if_neg hnul]
      split
      · next habsolute => rw [origin, if_pos habsolute]
      · next hrelative =>
        rw [origin, if_neg hrelative,
          steps_eq_stepsWithin (Bool.eq_false_iff.2 hrelative) hempty]

namespace StandsAt

theorem ne_empty (h : StandsAt tree here directory there) :
  directory ≠ ""
  := (eq_none_of_pathFault? h.sound).2

/-- What is read from a directory leads where it leads to from its place. -/
theorem resolve_join (h : StandsAt tree here directory there)
    (hshort : (join directory path).utf8ByteSize ≤ maxPathLength) :
  tree.resolve true here (join directory path) = tree.reach there path
  := by
  cases hpath : isAbsolute path with
  | true =>
    have hempty : path ≠ "" := by
      rintro rfl
      cases hpath
    rw [join_of_isAbsolute hpath] at hshort ⊢
    rw [resolve_eq_reach tree here hempty hshort, reach, reach, hpath]
    rfl
  | false =>
    obtain ⟨hrelative, hempty⟩ := isAbsolute_join h.relative h.ne_empty hpath
    obtain ⟨time, hleads⟩ := h.leads
    rw [resolve_eq_reach tree here hempty hshort, reach, reach, hrelative, hpath,
      contains_join (eq_none_of_pathFault? h.sound).1, stepsWithin_join h.ne_empty hpath,
      walk_append hleads]
    rfl

theorem exists_getElem? (h : StandsAt tree here directory there) :
  ∃ time, tree.entries[there]? = some (.directory time)
  := by
  obtain ⟨time, hleads⟩ := h.leads
  exact ⟨time, getElem?_of_walk hleads⟩

/-- The path of the current directory leads from a directory to itself. -/
theorem dot (h : StandsAt tree here directory there) :
  StandsAt tree there "." there
  := by
  obtain ⟨time, hentry⟩ := h.exists_getElem?
  have hnames : namesOf "." = ["."] := rfl
  constructor
  case relative => rfl
  case sound => decide
  case leads =>
    refine ⟨time, ?_⟩
    rw [hnames, walk_dot hentry, walk, hentry]

theorem directoryAt (h : StandsAt tree here directory there) :
  tree.directoryAt here directory = .ok there
  := by
  obtain ⟨time, hleads⟩ := h.leads
  have hentry := getElem?_of_walk hleads
  have hend : tree.walk true maxLinks there [] = .ok (there, some (.directory time)) := by
    rw [walk, hentry]
  have hresolve : tree.resolve true here directory = .ok (there, some (.directory time)) := by
    rw [resolve, h.sound]
    simp only [origin, h.relative, Bool.false_eq_true, if_false,
      steps_eq_stepsWithin h.relative h.ne_empty, stepsWithin]
    split
    · rw [walk_append hleads, walk_dot hentry, hend]
    · have hwalk := walk_append hleads maxLinks []
      rw [List.append_nil, hend] at hwalk
      exact hwalk
  simp only [FileTree.directoryAt, hresolve, Entry.isDirectory, if_true]

/-- What is read from a directory leads to what it leads to from its place. -/
theorem entryAt_join (h : StandsAt tree here directory there) (hempty : path ≠ "")
    (hshort : (join directory path).utf8ByteSize ≤ maxPathLength) :
  tree.entryAt here (join directory path) = tree.entryAt there path
  := by
  have hpath : path.utf8ByteSize ≤ maxPathLength :=
    Nat.le_trans (utf8ByteSize_le_join directory path) hshort
  rw [entryAt, entryAt, h.resolve_join hshort, resolve_eq_reach tree there hempty hpath]

theorem stat_join (h : StandsAt tree here directory there) (hempty : path ≠ "")
    (hshort : (join directory path).utf8ByteSize ≤ maxPathLength) :
  tree.stat here (join directory path) = tree.stat there path
  := by rw [stat, stat, h.entryAt_join hempty hshort]

/-- The empty path does not lead to a file, and neither does it when it is read from a
directory. -/
theorem isFile_join (h : StandsAt tree here directory there)
    (hshort : (join directory path).utf8ByteSize ≤ maxPathLength) :
  tree.isFile here (join directory path) = tree.isFile there path
  := by
  by_cases hempty : path = ""
  · obtain ⟨time, hentry⟩ := h.exists_getElem?
    have hsteps : stepsWithin "" = ["."] := rfl
    have hreach : tree.reach there "" = .ok (there, some (.directory time)) := by
      change tree.walk true maxLinks there (stepsWithin "") = _
      rw [hsteps, walk_dot hentry, walk, hentry]
    rw [hempty] at hshort ⊢
    rw [isFile, entryAt, h.resolve_join hshort, hreach]
    rfl
  · rw [isFile, isFile, h.entryAt_join hempty hshort]

theorem read_join (h : StandsAt tree here directory there) (hfile : tree.isFile there path = true)
    (hshort : (join directory path).utf8ByteSize ≤ maxPathLength) :
  tree.read here (join directory path) = tree.read there path
  := by
  have hempty : path ≠ "" := by
    rintro rfl
    cases hfile
  rw [read, read, h.entryAt_join hempty hshort]

end StandsAt

end FileTree

end IncrementalBuild
