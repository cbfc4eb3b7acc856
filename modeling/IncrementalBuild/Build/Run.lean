import IncrementalBuild.Build.Walk

/-!
# Builds

`build` brings a node up to date: it surveys what can be reached from the node, and if no
error is met there it walks over it.  A node that an earlier build has dealt with is not
dealt with again.  `buildTarget` builds the target of a name, or, without a name, the
target that was declared first.

A run keeps, beside its result, what has been done when it ended, also when it ended in an
error, and the reports it made.
-/

namespace IncrementalBuild

/-- What a successful build did: the name of its root, the number of commands that were
run, and the names of the nodes found stale, in the order in which they were brought up to
date. -/
structure Outcome where
  root : String
  commandsRun : Nat
  rebuilt : List String
deriving DecidableEq, Repr

/-- No command was run. -/
def Outcome.isUpToDate (outcome : Outcome) : Bool :=
  outcome.commandsRun = 0

/-- The report at the end of a build. -/
def Outcome.event (outcome : Outcome) : Event :=
  if outcome.isUpToDate then
    .upToDate outcome.root
  else
    .finished outcome.root outcome.commandsRun

/-- A build that has ended: its result, what has been done, and the reports. -/
structure Run (g : Graph) (World : Type) where
  result : Except (Stop BuildError) Outcome
  progress : Progress g World
  events : List Event

namespace Run

variable {g : Graph} {World : Type}

/-- The commands that were given to be executed, from the first to the last. -/
def commands (run : Run g World) : List String :=
  run.progress.trace.toList.filterMap Action.command?

end Run

/-- The report that is made of what has stopped a survey. -/
def Stop.surveyEvents : Stop BuildError → List Event
  | .failure (.missingPrerequisite name neededBy) => [.unmet name neededBy]
  | _ => []

/-- Brings a node up to date. -/
def build {World : Type} (env : Environment World) (g : Graph) (marks : Marks g) (world : World)
    (root : g.Id) : Run g World :=
  let start := Progress.start marks world
  match survey env world g root with
  | some e => ⟨.error e, start, e.surveyEvents⟩
  | none =>
    if (marks.mark root).visit = .done then
      ⟨.ok ⟨g.name root, 0, []⟩, start, []⟩
    else
      match walk env g root start with
      | (.error e, p) => ⟨.error e, p, p.trace.toList.filterMap Action.event?⟩
      | (.ok (), p) =>
        let outcome := ⟨g.name root, p.commandsRun, p.rebuilt.toList.map g.name⟩
        ⟨.ok outcome, p, p.trace.toList.filterMap Action.event? ++ [outcome.event]⟩

/-- The node to build: the declared target of the name, or, without a name, the target that
was declared first. -/
def Graph.root (g : Graph) : Option String → Except BuildError g.Id
  | none =>
    match g.first? with
    | none => .error .noTargets
    | some id => .ok id
  | some name =>
    match g.find? name with
    | none => .error (.unknownTarget name)
    | some id => if (g.node id).declared then .ok id else .error (.unknownTarget name)

/-- Builds the target of a name, or the target declared first. -/
def buildTarget {World : Type} (env : Environment World) (g : Graph) (marks : Marks g)
    (world : World) (target : Option String) : Run g World :=
  match g.root target with
  | .error e => ⟨.error (.failure e), Progress.start marks world, []⟩
  | .ok root => build env g marks world root

end IncrementalBuild
