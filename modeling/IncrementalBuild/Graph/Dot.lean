import IncrementalBuild.Graph.Basic

/-!
# Graphs drawn in DOT

`Graph.dot` writes a graph as a DOT digraph: first a line for each node, a box if it is
declared and an ellipse if not, then a line for each dependency, both in the order of the
node numbers.  `quote` puts a name between quotation marks, with a backslash before each
quotation mark and each backslash of the name.
-/

namespace IncrementalBuild

namespace Dot

/-- The characters of a name with a backslash before each quotation mark and backslash. -/
def escape (name : List Char) : List Char :=
  name.flatMap fun c => if c = '"' ∨ c = '\\' then ['\\', c] else [c]

/-- A name between quotation marks. -/
def quote (name : String) : String :=
  "\"" ++ String.ofList (escape name.toList) ++ "\""

/-- The shape a node is drawn in. -/
def shape (node : Node) : String :=
  if node.declared then "box" else "ellipse"

/-- The line of a node. -/
def nodeLine (node : Node) : String :=
  "    " ++ quote node.name ++ " [shape=" ++ shape node ++ "];\n"

/-- The line of a dependency. -/
def edgeLine (name dependency : String) : String :=
  "    " ++ quote name ++ " -> " ++ quote dependency ++ ";\n"

end Dot

namespace Graph

/-- The lines of the dependencies of a node. -/
def edgeLines (g : Graph) (id : g.Id) : List String :=
  (g.dependencies id).map fun dependency => Dot.edgeLine (g.name id) (g.name dependency)

/-- The text of a graph in DOT. -/
def dot (g : Graph) : String :=
  "digraph tsumiki \x7b\n"
    ++ String.join (g.nodes.toList.map Dot.nodeLine)
    ++ String.join ((List.finRange g.size).flatMap g.edgeLines)
    ++ "\x7d\n"

end Graph

end IncrementalBuild
