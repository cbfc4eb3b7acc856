import IncrementalBuild.Machine.Shell.State

/-!
# The expansion of words

A word stands for fields.  Parameters are replaced by their values; blanks in a value that
is not quoted separate fields; and a field that is a pattern is replaced by the paths that
match it.  Where only one text can stand, as in an assignment or a redirection, a word is
neither split nor a pattern.
-/

namespace IncrementalBuild.Shell

/-- The fields a word has been expanded to so far, the last first, and the one that is being
written, its last character first. -/
structure Fields where
  finished : List (List Glyph)
  current : Option (List Glyph)

/-- Text that belongs to one field. -/
def Fields.add (fields : Fields) (quoted : Bool) (cs : List Char) : Fields :=
  { fields with current := some ((cs.map (⟨·, quoted⟩)).reverse ++ fields.current.getD []) }

/-- The end of a field. -/
def Fields.finish (fields : Fields) : Fields :=
  match fields.current with
  | none => fields
  | some field => ⟨field.reverse :: fields.finished, none⟩

/-- Text in which blanks separate fields. -/
def Fields.addSplit (fields : Fields) (cs : List Char) : Fields :=
  cs.foldl (fun fields c =>
    if c = ' ' || c = '\t' || c = '\n' then fields.finish else fields.add false [c]) fields

/-- Whether a part stands for the arguments of the shell, of which there are none. -/
def Part.isArguments (part : Part) : Bool :=
  part = .parameter "@" true || part = .parameter "@" false

/-- Whether a part is an expansion without a name. -/
def Part.isMisnamed (part : Part) : Bool :=
  part = .misnamed

/-- A word in which a tilde at the beginning, alone or before a slash, stands for the
directory of the user. -/
def atHome : Word → Word
  | [.text ['~'] false] => [.parameter "HOME" true]
  | .text ['~'] false :: .text ['/'] false :: rest =>
    .parameter "HOME" true :: .text ['/'] false :: rest
  | word => word

/-- The fields a word stands for. -/
def expand (sh : Shell) (word : Word) : List String :=
  let word := atHome word
  let isEmpty (part : Part) : Bool :=
    match part with
    | .text chars quoted => chars.isEmpty && quoted
    | .parameter name false => sh.parameter name = ""
    | part => part.isArguments
  let isNothing := word.any Part.isArguments && word.all isEmpty
  if isNothing then
    []
  else
    let fields := word.foldl (fun fields part =>
      match part with
      | .text chars quoted => fields.add quoted chars
      | .parameter name true => fields.add true (sh.parameter name).toList
      | .parameter name false => fields.addSplit (sh.parameter name).toList
      | .misnamed => fields) (⟨[], none⟩ : Fields)
    fields.finish.finished.reverse.flatMap (Glyph.expand sh.machine.tree sh.here)

/-- The text a word stands for where it is not split into fields. -/
def expandText (sh : Shell) (word : Word) : String :=
  String.join ((atHome word).map fun part =>
    match part with
    | .text chars _ => String.ofList chars
    | .parameter name _ => sh.parameter name
    | .misnamed => "")

end IncrementalBuild.Shell
