import IncrementalBuild.Graph.Dot
import IncrementalBuild.Proofs.Graph.Evolution

/-!
# What a drawing shows

The drawing of a graph shows a `Figure` for each node: its name, whether it is declared, and the
names of its dependencies.  Two graphs have the same drawing if and only if they have the same
figures in the same order, whatever characters stand in their names.

A drawing is a text of lines, each of which is the line of a node or the line of a dependency.  A
name between quotation marks ends at the first quotation mark that has no backslash before it, so
`unquote` finds the name and what comes behind it.  What comes behind the first name of a line
tells the two kinds of lines apart, and so a text can be cut into lines in one way only.  The lines
in their turn tell the figures, since no two nodes have the same name.
-/

namespace IncrementalBuild

namespace Dot

/-! ### Names between quotation marks -/

/-- The characters up to the first quotation mark that has no backslash before it, without the
backslashes before characters, and what comes behind the quotation mark. -/
def unescape : List Char → Option (List Char × List Char)
  | [] => none
  | '"' :: behind => some ([], behind)
  | '\\' :: c :: rest => (unescape rest).map fun found => (c :: found.1, found.2)
  | c :: rest => (unescape rest).map fun found => (c :: found.1, found.2)

/-- The name between quotation marks that a text begins with, and what comes behind it. -/
def unquote : List Char → Option (String × List Char)
  | '"' :: rest => (unescape rest).map fun found => (String.ofList found.1, found.2)
  | _ => none

theorem unescape_cons {c : Char} (hquote : c ≠ '"') (hslash : c ≠ '\\') (rest : List Char) :
  unescape (c :: rest) = (unescape rest).map fun found => (c :: found.1, found.2)
  := by rw [unescape] <;> simp [hquote, hslash]

theorem unescape_escape (name behind : List Char) :
  unescape (escape name ++ '"' :: behind) = some (name, behind)
  := by
  induction name with
  | nil => rfl
  | cons c name ih =>
    rw [escape, List.flatMap_cons, ← escape, List.append_assoc]
    split
    · rw [List.cons_append, List.singleton_append, unescape, ih, Option.map_some]
    · next hplain =>
      rw [not_or] at hplain
      rw [List.singleton_append, unescape_cons hplain.1 hplain.2, ih, Option.map_some]

/-- A name that is put between quotation marks is found again, whatever comes behind it. -/
theorem unquote_quote (name : String) (behind : List Char) :
  unquote ((quote name).toList ++ behind) = some (name, behind)
  := by
  have hquote : (quote name).toList ++ behind = '"' :: (escape name.toList ++ '"' :: behind) := by
    simp [quote]
  rw [hquote, unquote, unescape_escape, Option.map_some, String.ofList_toList]

/-- Behind which name a text goes on is told by the text. -/
theorem quote_append_inj {name name' : String} {behind behind' : List Char}
    (h : (quote name).toList ++ behind = (quote name').toList ++ behind') :
  name = name' ∧ behind = behind'
  := by
  have hunquote := congrArg unquote h
  rw [unquote_quote, unquote_quote] at hunquote
  cases hunquote
  exact ⟨rfl, rfl⟩

example : unquote (quote "say \"a\\b\" -> c").toList = some ("say \"a\\b\" -> c", []) := by decide

/-! ### Lines -/

/-- A line of a drawing: a node, or a dependency of a node. -/
inductive Line
  | node (name : String) (declared : Bool)
  | edge (name dependency : String)
deriving DecidableEq

/-- The first name of a line. -/
def Line.name : Line → String
  | node name _ => name
  | edge name _ => name

/-- What comes behind the first name of a line. -/
def Line.behind : Line → String
  | node _ declared => " [shape=" ++ (if declared then "box" else "ellipse") ++ "];\n"
  | edge _ dependency => " -> " ++ quote dependency ++ ";\n"

/-- The characters of a line. -/
def Line.chars (line : Line) : List Char :=
  ("    " ++ quote line.name ++ line.behind).toList

theorem toList_nodeLine (node : Node) :
  (nodeLine node).toList = (Line.node node.name node.declared).chars
  := by simp only [nodeLine, shape, Line.chars, Line.name, Line.behind, String.append_assoc]

theorem toList_edgeLine (name dependency : String) :
  (edgeLine name dependency).toList = (Line.edge name dependency).chars
  := by simp only [edgeLine, Line.chars, Line.name, Line.behind, String.append_assoc]

theorem Line.chars_append (line : Line) (rest : List Char) :
  line.chars ++ rest
    = ' ' :: ' ' :: ' ' :: ' ' :: ((quote line.name).toList ++ (line.behind.toList ++ rest))
  := by simp [chars]

/-- A line that a text begins with is told by the text. -/
theorem Line.chars_append_inj {line line' : Line} {rest rest' : List Char}
    (h : line.chars ++ rest = line'.chars ++ rest') :
  line = line' ∧ rest = rest'
  := by
  simp only [chars_append, List.cons.injEq, true_and] at h
  obtain ⟨hname, hbehind⟩ := quote_append_inj h
  cases line with
  | node name declared =>
    cases line' with
    | node name' declared' =>
      cases hname
      cases declared <;> cases declared' <;> simp [behind] at hbehind
      · exact ⟨rfl, hbehind⟩
      · exact ⟨rfl, hbehind⟩
    | edge name' dependency' => simp [behind] at hbehind
  | edge name dependency =>
    cases line' with
    | node name' declared' => simp [behind] at hbehind
    | edge name' dependency' =>
      cases hname
      have hquotes : (quote dependency).toList ++ (";\n".toList ++ rest)
          = (quote dependency').toList ++ (";\n".toList ++ rest') := by
        simpa [behind] using hbehind
      obtain ⟨hdependency, hrest⟩ := quote_append_inj hquotes
      exact ⟨congrArg _ hdependency, (List.append_right_inj _).1 hrest⟩

/-- A text of lines up to a closing brace can be cut into lines in one way only. -/
theorem flatMap_chars_inj {lines lines' : List Line}
    (h : lines.flatMap Line.chars ++ "\x7d\n".toList
      = lines'.flatMap Line.chars ++ "\x7d\n".toList) :
  lines = lines'
  := by
  induction lines generalizing lines' with
  | nil =>
    cases lines' with
    | nil => rfl
    | cons line' lines' =>
      simp [Line.chars_append] at h
  | cons line lines ih =>
    cases lines' with
    | nil =>
      simp [Line.chars_append] at h
    | cons line' lines' =>
      rw [List.flatMap_cons, List.flatMap_cons, List.append_assoc, List.append_assoc] at h
      obtain ⟨rfl, hrest⟩ := Line.chars_append_inj h
      rw [ih hrest]

/-! ### Figures -/

/-- What a drawing shows of a node. -/
structure Figure where
  name : String
  declared : Bool
  dependencies : List String
deriving DecidableEq

/-- The lines that draw figures: those of the nodes, and then those of the dependencies. -/
def linesOf (figures : List Figure) : List Line :=
  figures.map (fun figure => .node figure.name figure.declared)
    ++ figures.flatMap fun figure => figure.dependencies.map (.edge figure.name)

/-- The dependency that a line gives to a node. -/
def Line.dependencyOf? (name : String) : Line → Option String
  | node _ _ => none
  | edge other dependency => if other = name then some dependency else none

/-- The figure of the node that a line draws, which has the dependencies that all lines give it. -/
def Line.figure? (lines : List Line) : Line → Option Figure
  | node name declared => some ⟨name, declared, lines.filterMap (dependencyOf? name)⟩
  | edge _ _ => none

theorem filterMap_linesOf {α : Type} (f : Line → Option α) (figures : List Figure) :
  (linesOf figures).filterMap f
    = figures.filterMap (fun figure => f (.node figure.name figure.declared))
      ++ figures.flatMap fun figure => figure.dependencies.filterMap fun dependency =>
          f (.edge figure.name dependency)
  := by
  rw [linesOf, List.filterMap_append, List.filterMap_map, List.filterMap_flatMap]
  simp only [List.filterMap_map, Function.comp_def]

/-- The lines of figures with different names give each node its own dependencies. -/
theorem filterMap_dependencyOf? {figures : List Figure} {figure : Figure}
    (hnodup : (figures.map Figure.name).Nodup) (hmem : figure ∈ figures) :
  (linesOf figures).filterMap (Line.dependencyOf? figure.name) = figure.dependencies
  := by
  have hnone : ∀ other : Figure, other.name ≠ figure.name →
      (other.dependencies.filterMap fun dependency =>
        Line.dependencyOf? figure.name (.edge other.name dependency)) = [] := by
    intro other hother
    rw [List.filterMap_eq_nil_iff]
    exact fun _ _ => if_neg hother
  have hself : (figure.dependencies.filterMap fun dependency =>
      Line.dependencyOf? figure.name (.edge figure.name dependency)) = figure.dependencies :=
    (List.filterMap_congr fun _ _ => if_pos rfl).trans List.filterMap_some
  have hnodes : (figures.filterMap fun other =>
      Line.dependencyOf? figure.name (.node other.name other.declared)) = [] := by
    rw [List.filterMap_eq_nil_iff]
    exact fun _ _ => rfl
  rw [filterMap_linesOf, hnodes, List.nil_append]
  obtain ⟨before, after, rfl⟩ := List.append_of_mem hmem
  -- the name is that of no figure before it and of none after it
  have hother : ∀ other ∈ before ++ after, other.name ≠ figure.name := by
    rw [List.map_append, List.map_cons, List.nodup_middle, List.nodup_cons, ← List.map_append]
      at hnodup
    exact fun other hother hname => hnodup.1 (hname ▸ List.mem_map_of_mem hother)
  rw [List.flatMap_append, List.flatMap_cons, hself,
    List.flatMap_eq_nil_iff.2 fun other h => hnone other (hother other (List.mem_append_left _ h)),
    List.flatMap_eq_nil_iff.2 fun other h => hnone other (hother other (List.mem_append_right _ h)),
    List.nil_append, List.append_nil]

/-- Figures with different names are told by their lines. -/
theorem filterMap_figure? {figures : List Figure} (hnodup : (figures.map Figure.name).Nodup) :
  (linesOf figures).filterMap (Line.figure? (linesOf figures)) = figures
  := by
  have hnodes : (figures.filterMap fun figure =>
      Line.figure? (linesOf figures) (.node figure.name figure.declared)) = figures := by
    refine (List.filterMap_congr fun figure hfigure => ?_).trans List.filterMap_some
    rw [Line.figure?, filterMap_dependencyOf? hnodup hfigure]
  have hedges : (figures.flatMap fun figure => figure.dependencies.filterMap fun dependency =>
      Line.figure? (linesOf figures) (.edge figure.name dependency)) = [] := by
    rw [List.flatMap_eq_nil_iff]
    intro figure _
    rw [List.filterMap_eq_nil_iff]
    exact fun _ _ => rfl
  rw [filterMap_linesOf, hnodes, hedges, List.append_nil]

end Dot

/-! ### Drawings of graphs -/

namespace Graph

/-- What the drawing of a graph shows of a node. -/
def figure (g : Graph) (id : g.Id) : Dot.Figure :=
  ⟨g.name id, (g.node id).declared, (g.dependencies id).map g.name⟩

/-- What the drawing of a graph shows of its nodes, in the order of their numbers. -/
def figures (g : Graph) : List Dot.Figure :=
  (List.finRange g.size).map g.figure

theorem map_node_finRange (g : Graph) :
  (List.finRange g.size).map g.node = g.nodes.toList
  := by
  apply List.ext_getElem
  · rw [List.length_map, List.length_finRange, size, Array.length_toList]
  · intro id _ _
    simp [node]

theorem map_name_figures (g : Graph) :
  g.figures.map Dot.Figure.name = g.names
  := by
  rw [figures, List.map_map, names, ← map_node_finRange, List.map_map]
  rfl

/-- A drawing is a text of the lines of its figures. -/
theorem toList_dot (g : Graph) :
  g.dot.toList = "digraph tsumiki \x7b\n".toList
    ++ ((Dot.linesOf g.figures).flatMap Dot.Line.chars ++ "\x7d\n".toList)
  := by
  have hnodes : (g.nodes.toList.map Dot.nodeLine).flatMap String.toList
      = (g.figures.map fun figure => .node figure.name figure.declared).flatMap Dot.Line.chars := by
    simp only [← map_node_finRange, figures, List.flatMap_map, Dot.toList_nodeLine]
    rfl
  have hedges : ((List.finRange g.size).flatMap g.edgeLines).flatMap String.toList
      = (g.figures.flatMap fun figure => figure.dependencies.map (.edge figure.name)).flatMap
          Dot.Line.chars := by
    simp only [figures, List.flatMap_map, List.flatMap_assoc, edgeLines, figure,
      Dot.toList_edgeLine]
  rw [Dot.linesOf, List.flatMap_append, ← hnodes, ← hedges]
  unfold dot
  simp only [String.toList_append, String.toList_join, List.append_assoc]

/-- Two graphs have the same drawing if and only if they have the same nodes in the same order, with
the same names, declarations and names of dependencies.  A name between quotation marks is found
again by removing the marks and the backslashes, whatever comes behind it. -/
theorem dot_eq_iff (g g' : Graph) :
  (g.dot = g'.dot ↔ g.figures = g'.figures)
    ∧ ∀ (name : String) (behind : List Char),
        Dot.unquote ((Dot.quote name).toList ++ behind) = some (name, behind)
  := by
  refine ⟨⟨fun h => ?_, fun h => ?_⟩, Dot.unquote_quote⟩
  · have hlines : Dot.linesOf g.figures = Dot.linesOf g'.figures := by
      have htext := congrArg String.toList h
      rw [toList_dot, toList_dot] at htext
      exact Dot.flatMap_chars_inj ((List.append_right_inj _).1 htext)
    have hnodup : (g.figures.map Dot.Figure.name).Nodup := by
      rw [map_name_figures]
      exact g.nodup_names
    have hnodup' : (g'.figures.map Dot.Figure.name).Nodup := by
      rw [map_name_figures]
      exact g'.nodup_names
    rw [← Dot.filterMap_figure? hnodup, hlines, Dot.filterMap_figure? hnodup']
  · rw [← String.toList_inj, toList_dot, toList_dot, h]

end Graph

end IncrementalBuild
