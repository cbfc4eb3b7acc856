import IncrementalBuild.Machine.Shell.Program.Copy.Admission
import IncrementalBuild.Machine.Shell.Program.Directory

/-!
# Copying

`cp` copies files to a destination, or into a directory, and directories with what is in
them if it is told so.  Instead of copying it can make links.

A file is never copied onto itself, and a directory is not copied into itself.  What has been
copied for one operand is not overwritten for another.
-/

namespace IncrementalBuild.Shell.Program

/-! ### Files -/

/-- Whether another copy of the same thing is to become a name of this one. -/
def Copying.sharesNames (copying : Copying) (isOperand : Bool) (origin : Found)
    (copier : Copier) : Bool :=
  copying.keepsNames && copying.product ≠ .name
    && (origin.hasOtherNames copier.work.tree || (isOperand && copying.follows = .operands)
      || copying.follows = .always)

/-- Records the destination of an operand. -/
def Copying.record (copying : Copying) (isOperand : Bool) (target : String)
    (copier : Copier) : Copier :=
  match copying.tracks && isOperand, copier.targetName? target, find copier.shell false target with
  | true, some place, .ok found => { copier with made := (place, found) :: copier.made }
  | _, _, _ => copier

/-- Puts something that is not a directory at a destination, where there is room for it; what
has been there may have been kept. -/
def Copying.copyToRoom (copying : Copying) (isOperand isNew : Bool) (kept : Option String)
    (source target : String) (origin : Found) (copier : Copier) : Bool × Copier :=
  let copier := copier.tell (shown source ++ " -> " ++ shown target
    ++ (kept.map fun kept => " (backup: " ++ shown kept ++ ")").getD "")
  let restored (copier : Copier) : Copier :=
    match kept with
    | none => copier
    | some kept => copier.restore kept target
  let earlier := (copier.earlier? origin).filter fun _ =>
    copying.sharesNames isOperand origin copier
  match earlier with
  | some earlier =>
    match copier.copyName earlier target with
    | (true, copier) => (true, copier)
    | (false, copier) => (false, restored copier)
  | none =>
    let copier :=
      if copying.sharesNames isOperand origin copier then copier.remember origin target
      else copier
    match copying.copyLeaf isNew source target origin copier with
    | (true, copier) => (true, copying.record isOperand target copier)
    | (false, copier) => (false, restored (copier.forget origin))

/-! ### Directories -/

/-- What can be said of a directory that has been copied before, or has been made by this
copying: whether it is passed over, and with success. -/
def Copying.passOver (copying : Copying) (isOperand : Bool) (top : String × String)
    (source target earlier : String) (copier : Copier) : Option Bool × Copier :=
  let name? := copier.targetName? earlier
  if name?.isSome && copier.sourceName? source = name? then
    (some false,
      { copier with entersItself := true }.warn
        ("cannot copy a directory, " ++ shown top.1 ++ ", into itself, " ++ shown top.2))
  else if name?.isSome && copier.targetName? target = name? then
    (some true,
      copier.warn ("warning: source directory " ++ shown top.1 ++ " specified more than once"))
  else if copying.follows = .always || (isOperand && copying.follows = .operands) then
    (none, copier)
  else
    (some false,
      copier.warn
        ("will not create hard link " ++ shown target ++ " to directory " ++ shown earlier))

/-- Makes the directory that another one is copied to. -/
def Copying.makeDirectory (source target : String) (copier : Copier) : Bool × Copier :=
  match copier.work.tree.makeDirectory copier.shell.here target with
  | (.error e, _) => copier.failFor ("cannot create directory " ++ shown target) e
  | (.ok (), tree) =>
    let copier := (copier.withTree tree).tell (shown source ++ " -> " ++ shown target)
    if copier.madeFirst then
      (true, copier)
    else
      let copier :=
        match find copier.shell true target with
        | .ok found => copier.remember found target
        | .error _ => copier
      (true, { copier with madeFirst := true })

/-! ### Files and directories -/

/-- The destination of a copy if it is there, and whether it is to be made.  A path that
leads in a circle is taken for one that is there if it may be replaced.  The empty path leads
to the directory of the shell, unless it is known to lead nowhere. -/
def Copying.destination (copying : Copying) (parentIsNew followsLink : Bool) (target : String)
    (sh : Shell) : Except SystemError (Option Found × Bool) :=
  if parentIsNew || (followsLink && copying.startsAnew) then
    .ok (none, true)
  else
    match find sh followsLink (orHere target) with
    | .ok found => .ok (some found, false)
    | .error .notFound => .ok (none, true)
    | .error e =>
      if e = .tooManyLinks && copying.replacesUnopened then .ok (none, false) else .error e

/-- Whether a source is written through a link at its destination. -/
def Copying.writesThrough (copying : Copying) (origin : Found) : Bool :=
  (origin.isFile || (copying.copiesDevices && !origin.isDirectory && !origin.isLink))
    && copying.product = .copy && !copying.removesFirst && copying.keeps.isNone

/-- Whether a destination is a link that an operand before has been copied to. -/
def Copier.leadsThroughMade (copier : Copier) (target : String) : Bool :=
  match find copier.shell false target with
  | .ok found =>
    found.isLink && copier.made.any fun (place, other) =>
      some place = copier.targetName? target && other.isSame found
  | .error _ => false

/-- Makes room for a copy at a destination.  It is an error if the copy is settled, with
success or not; else the first components say whether there is nothing at the destination, and
where what has been there is kept. -/
def Copying.approach (copying : Copying) (isOperand parentIsNew : Bool)
    (source target : String) (origin : Found) (copier : Copier) :
    Except Bool (Bool × Option String) × Copier :=
  let refuse (message : String) : Except Bool (Bool × Option String) × Copier :=
    (.error false, copier.warn message)
  match copying.destination parentIsNew (copying.writesThrough origin) target copier.shell with
  | .error e => refuse ("cannot stat " ++ shown target ++ ": " ++ e.reason)
  | .ok (none, isNew) => (.ok (isNew, none), copier)
  | .ok (some there, isNew) =>
    match copying.admit isOperand source target origin there copier with
    | (some succeeded, copier) => (.error succeeded, copier)
    | (none, copier) =>
      match copying.makeRoom source target origin there copier with
      | (.error message, copier) => (.error false, copier.warn message)
      | (.ok (isCleared, kept), copier) => (.ok (isNew || isCleared, kept), copier)

/-- Copies what a path leads to, down to a number of levels.  `ancestors` are the places of
the directories that are being copied, and `top` are the operand and its destination. -/
def Copying.copy (copying : Copying) :
    (levels : Nat) → (isOperand parentIsNew : Bool) → (ancestors : List Place) →
      (top : String × String) → (source target : String) → Copier → Bool × Copier
  | 0, _, _, _, _, _, _, copier => (false, copier)
  | levels + 1, isOperand, parentIsNew, ancestors, top, source, target, copier =>
    let follows := if isOperand || copying.follows ≠ .operands then copying.follows else .never
    let copying :=
      { copying with follows := follows, startsAnew := copying.startsAnew && isOperand }
    let isTracked := isOperand && copying.tracks && copying.keeps.isNone
    match find copier.shell (follows ≠ .never) source with
    | .error e => copier.failFor ("cannot stat " ++ shown source) e
    | .ok origin =>
      let sourceName := (copier.sourceName? source).getD origin.place
      if origin.isDirectory && !copying.recursive then
        copier.fail ("-r not specified; omitting directory " ++ shown source)
      else if isTracked && !origin.isDirectory && copier.sources.contains sourceName then
        (true,
          copier.warn ("warning: source file " ++ shown source ++ " specified more than once"))
      else
        let copier :=
          if isOperand then { copier with sources := sourceName :: copier.sources } else copier
        match copying.approach isOperand parentIsNew source target origin copier with
        | (.error succeeded, copier) => (succeeded, copier)
        | (.ok (isNew, kept), copier) =>
          if isTracked && copier.leadsThroughMade target then
            copier.fail ("will not copy " ++ shown source ++ " through just-created symlink "
              ++ shown target)
          else if !origin.isDirectory then
            copying.copyToRoom isOperand isNew kept source target origin copier
          else
            let earlier := copier.earlier? origin
            let (passed, copier) :=
              match earlier with
              | none => (none, if isOperand then copier.remember origin target else copier)
              | some earlier => copying.passOver isOperand top source target earlier copier
            match passed with
            | some succeeded => (succeeded, copier)
            | none =>
              if ancestors.contains origin.place then
                copier.fail ("cannot copy cyclic symbolic link " ++ shown source)
              else
                let isMade := isNew || !(find copier.shell false (orHere target)).isOk
                let (succeeded, copier) :=
                  if isMade then Copying.makeDirectory source target copier
                  else (true, copier)
                if !succeeded then
                  (false, if earlier.isNone then copier.forget origin else copier)
                else
                  let names := copier.work.tree.namesByAge origin.place
                  let madeFirst := copier.madeFirst
                  let (succeeded, after) := names.foldl (fun (succeeded, after) name =>
                    if after.entersItself then
                      (succeeded, after)
                    else
                      let (succeeds, next) :=
                        copying.copy levels false isMade (origin.place :: ancestors) top
                          (inDirectory source name) (inDirectory target name)
                          { after with madeFirst := madeFirst }
                      (succeeded && succeeds,
                        { next with madeFirst := after.madeFirst || next.madeFirst }))
                    (true, { copier with madeFirst := false })
                  let after :=
                    if copying.keepsTimes then after.keepTime true origin target else after
                  (succeeded, copying.record isOperand target after)

/-- Copies an operand. -/
def Copying.copyOperand (copying : Copying) (source target : String) (copier : Copier) :
    Bool × Copier :=
  copying.copy (2 * copier.work.tree.entries.size + 2) true copier.parentIsNew []
    (source, target) source target { copier with madeFirst := false, entersItself := false }

/-! ### Directories on the way -/

/-- What is wrong with a path on the way to a source, which must lead to a directory. -/
def attributesFault? (source : String) (sh : Shell) : Option SystemError :=
  match find sh true source with
  | .error e => some e
  | .ok found => if found.isDirectory then none else some .notADirectory

/-- Makes the directories on the way to a destination, for those on the way to its source;
whether all of them are there. -/
def Copying.makeParents (copying : Copying) : List (String × String) → Copier → Bool × Copier
  | [], copier => (true, copier)
  | (source, target) :: rest, copier =>
    let there := find copier.shell true target
    let fault? :=
      if there.isOk && !copying.keepsAttributes then none
      else attributesFault? source copier.shell
    match fault?, there with
    | some e, _ => copier.failFor ("failed to get attributes of " ++ shown source) e
    | none, .ok found =>
      if found.isDirectory then copying.makeParents rest { copier with parentIsNew := false }
      else copier.fail (shown target ++ " exists but is not a directory")
    | none, .error _ =>
      match copier.work.tree.makeDirectory copier.work.here target with
      | (.ok (), tree) =>
        copying.makeParents rest
          ({ copier with parentIsNew := true }.withTree tree
            |>.tell (source ++ " -> " ++ target))
      | (.error e, _) =>
        { copier with parentIsNew := true }.failFor ("cannot make directory " ++ shown target) e

/-- Makes the directories on the way to a destination unless the last of them is there.  It is
an error if they cannot be made; else those are returned whose attributes may have to be kept. -/
def Copying.makeWay (copying : Copying) (way : List (String × String)) (copier : Copier) :
    Option (List (String × String)) × Copier :=
  match way.getLast? with
  | none => (some [], copier)
  | some (_, target) =>
    match find copier.shell true target with
    | .error _ =>
      let (succeeded, copier) := copying.makeParents way copier
      (if succeeded then some way else none, copier)
    | .ok found =>
      if found.isDirectory then (some [], { copier with parentIsNew := false })
      else (none, (copier.fail (shown target ++ " exists but is not a directory")).2)

/-- Gives the directories on the way to a destination, the last one first, the attributes of
those on the way to its source.  A mode is looked up by the path without slashes in front. -/
def Copying.keepParents (copying : Copying) : List (String × String) → Copier → Bool × Copier
  | [], copier => (true, copier)
  | (source, target) :: rest, copier =>
    let copier :=
      match copying.keepsTimes, find copier.shell true source with
      | true, .ok origin => copier.keepTime true origin target
      | _, _ => copier
    let path := String.ofList (source.toList.dropWhile (· = '/'))
    match copying.keepsModes, find copier.shell true path with
    | true, .error e => copier.failFor (shownAsText path) e
    | _, _ => copying.keepParents rest copier

/-- The paths on the way to a source, each with its destination. -/
def parentsOf (into : Option (String × Place)) (source : String) : List (String × String) :=
  match into with
  | none => []
  | some (directory, _) =>
    let way := (FileTree.initials (FileTree.withoutSlash source)).dropLast
    (way.filter (· ≠ "/")).map fun path => (path, wholePathInto directory path)

/-! ### The program -/

/-- How a single file is copied to a destination that is named in the same way: if it is to be
kept and may be replaced, the copy is what is kept. -/
def Copying.ofPair (copying : Copying) (sh : Shell) (source target : String) :
    Copying × String :=
  match copying.keeps with
  | some keeping =>
    if copying.replacesUnopened && source = target && !copying.startsAnew
        && sh.machine.tree.isFile sh.here target then
      ({ copying with keeps := none }, copying.keptPath keeping sh target)
    else
      (copying, target)
  | none => (copying, target)

/-- Copies what is asked for. -/
def Copying.copyAll (copying : Copying) (request : Request) (withParents verbose : Bool)
    (sh : Shell) : Shell :=
  let copying :=
    { copying with tracks := 2 ≤ request.pairs.length, startsAnew := request.startsAnew }
  let copier := request.pairs.foldl (fun copier (source, target) =>
    let way := if withParents then parentsOf request.into source else []
    let (copying, target) :=
      if request.into.isNone then copying.ofPair copier.shell source target
      else (copying, target)
    let (succeeded, copier) :=
      match copying.makeWay way copier with
      | (none, copier) => (false, copier)
      | (some made, copier) =>
        let (isCopied, copier) := copying.copyOperand source target copier
        let (isKept, copier) := copying.keepParents made.reverse copier
        (isCopied && isKept, copier)
    { copier with
      work := { copier.work with succeeded := copier.work.succeeded && succeeded } })
    (⟨.start verbose sh, request.into, [], [], [], false, false, false⟩ : Copier)
  copier.work.finish

/-- Copies files. -/
def cp : Program := withSwitches cpSwitches (contextWarnings "SELinux") fun call sh =>
  match Copying.ofOptions call (sh.values.lookup ·) with
  | .error fault => faulted fault sh
  | .ok copying =>
    match Request.ofOperands sh call with
    | .error fault => faulted fault sh
    | .ok request => copying.copyAll request (call.has "parents") (call.has "v") sh

end IncrementalBuild.Shell.Program
