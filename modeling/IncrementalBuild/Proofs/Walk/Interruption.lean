import IncrementalBuild.Proofs.Walk.Failure

/-!
# Where a failing command stops a build

A command that fails stops a build at once.  The nodes before its node in the post-order are
done, and no others are; the nodes in progress are those of one path of dependencies from the
root to the node; and all other nodes are as they were.  The commands given to be executed
are those of the nodes done that had to be built, one node after the other, and then those of
the node, the failing one last.
-/

namespace IncrementalBuild

variable {g : Graph} {World : Type}

/-- The nodes lie on a path from the first node to the last, each needing the next, and none
of them twice. -/
structure Graph.SimplePath (g : Graph) (first last : g.Id) (path : List g.Id) : Prop where
  head : path.head? = some first
  last : path.getLast? = some last
  chain : path.IsChain g.Needs
  nodup : path.Nodup

/-- A build from clear marks was stopped by the command of `node` that has the number `k`,
counted from zero: when it was executed, as the last of all commands, it failed with
`cause`.  The nodes `finished` are those before `node` in the post-order of the root, and
`path` leads from the root to `node`. -/
structure StoppedAt (env : Environment World) (world : World) (root : g.Id) (cause : CommandError)
    (run : Run g World) (node : g.Id) (k : Nat) (finished path : List g.Id) : Prop where
  postOrder : ∃ later, g.PostOrderOf root (finished ++ node :: later)
  simplePath : g.SimplePath root node path
  failed : ∃ command, (g.commands node)[k]? = some command ∧
    run.progress.trace.toList.getLast? = some (.issued node command) ∧
    env.execute (env.after world run.commands.dropLast) command
      = (.error cause, run.progress.world)
  mustBuild : (run.progress.marks.mark node).mustBuild = true
  commands : run.commands
    = (finished.filter run.progress.IsStale).flatMap g.commands ++ (g.commands node).take (k + 1)
  done_iff : ∀ other, (run.progress.marks.mark other).visit = .done ↔ other ∈ finished
  inProgress_iff : ∀ other, (run.progress.marks.mark other).visit = .inProgress ↔ other ∈ path
  untouched : ∀ other, other ∉ finished → other ∉ path →
    run.progress.marks.mark other = (Marks.clear g).mark other

namespace Walk

variable {env : Environment World} {root node : g.Id} {final order : List g.Id}
  {walk : Walk g World}

/-- The way from the root, read from the root on, is a simple path to the node on top. -/
theorem Follows.simplePath {pending : List g.Id} {resolved : Option g.Id}
    {below : List (Frame g)} {p : Progress g World}
    (h : Follows final order ⟨⟨node, pending, resolved⟩ :: below, p⟩)
    (hway : Way root ⟨⟨node, pending, resolved⟩ :: below, p⟩) :
  g.SimplePath root node (path ⟨⟨node, pending, resolved⟩ :: below, p⟩).reverse
  where
  head := by
    rw [List.head?_reverse]
    have hlast := List.getLast?_eq_some_getLast (List.cons_ne_nil node (below.map (·.node)))
    rw [← hway.root_eq _ hlast]
    exact hlast
  last := by
    rw [List.getLast?_reverse]
    rfl
  chain := List.isChain_reverse.2 hway.chain
  nodup := List.nodup_reverse.2 h.nodup_path

/-- The node on top is the next one to be left behind, if it has dealt with its
dependencies. -/
theorem Follows.exists_later {resolved : Option g.Id} {below : List (Frame g)}
    {p : Progress g World} (h : Follows final order ⟨⟨node, [], resolved⟩ :: below, p⟩) :
  ∃ later, final = order ++ node :: later
  := by
  obtain ⟨added, hsplit, -⟩ := (Graph.Completes.pop_iff.1 h.completes).exists_append
  use added
  rw [hsplit, List.append_assoc, List.singleton_append]

/-- A command that fails when a node is finished stops the walk at the node. -/
theorem stoppedAt_of_finish {world : World} {below : List (Frame g)} {p : Progress g World}
    {cause : CommandError} (run : Run g World) (hpost : g.PostOrderOf root final)
    (hfollows : Follows final order ⟨⟨node, [], none⟩ :: below, p⟩)
    (hbooked : Progress.Booked env world order p)
    (hway : Way root ⟨⟨node, [], none⟩ :: below, p⟩)
    (hfinish : p.finish env node = (.error (.failure (.command cause)), run.progress)) :
  ∃ k finished path, StoppedAt env world root cause run node k finished path
  := by
  obtain ⟨hmust, hfailure⟩ := Progress.finishFailure_of_finish hfinish
  generalize he : Stop.failure (BuildError.command cause) = e at hfailure
  cases hfailure with
  | unreadable _ _ _ => simpa using he.symm
  | @command earlier later command cause' hsplit hbroken =>
    cases he
    obtain ⟨rest, rfl⟩ := hfollows.exists_later
    have hcommands : run.commands
        = (order.filter p.IsStale).flatMap g.commands ++ (earlier ++ [command]) := by
      rw [← hbooked.rebuilt, ← hbooked.commands]
      exact hbroken.commands
    have hstale : run.progress.IsStale = p.IsStale := by
      funext other
      rw [Progress.IsStale, hbroken.marks, Progress.IsStale]
    refine ⟨earlier.length, order, _, ⟨rest, hpost⟩, hfollows.simplePath hway,
      ⟨command, ?_, ?_, ?_⟩, ?_, ?_, ?_, ?_, ?_⟩
    · rw [hsplit]
      simp
    · rw [hbroken.trace]
      simp
    · have hbefore : run.commands.dropLast = p.commands ++ earlier := by
        rw [hcommands, ← hbooked.rebuilt, ← hbooked.commands, ← List.append_assoc,
          List.dropLast_concat]
      rw [hbefore, Environment.after_append, ← hbooked.reached, hbroken.execute]
    · rw [hbroken.marks, hmust]
    · rw [hcommands, hstale, hsplit, List.take_length_add_append, List.take_one, List.head?_cons,
        Option.toList_some]
    · rw [hbroken.marks]
      exact hfollows.done_iff
    · intro other
      rw [hbroken.marks, List.mem_reverse]
      exact hfollows.inProgress_iff other
    · intro other hdone hpath
      rw [hbroken.marks, Marks.mark_clear]
      apply hfollows.clear
      rw [List.mem_reverse] at hpath
      cases hvisit : (p.marks.mark other).visit with
      | unvisited => rfl
      | inProgress => exact absurd ((hfollows.inProgress_iff other).1 hvisit) hpath
      | done => exact absurd ((hfollows.done_iff other).1 hvisit) hdone

/-- A node cannot fail to be entered because of a command. -/
theorem ne_command_of_enter {parent? : Option g.Id} {p q : Progress g World}
    {e : Stop BuildError} {cause : CommandError} (h : p.enter env parent? node = (.error e, q)) :
  e ≠ .failure (.command cause)
  := by
  obtain ⟨hfailure, -⟩ := Progress.enterFailure_of_enter h
  cases hfailure <;> simp

end Walk

/-- The nodes finished before a node in a post-order need nothing but each other, and do not
depend on the node. -/
theorem Graph.PostOrderOf.finished {root node : g.Id} {finished later : List g.Id}
    (h : g.PostOrderOf root (finished ++ node :: later)) :
  (∀ other ∈ finished, ∀ dependency, g.Needs other dependency → dependency ∈ finished) ∧
    ∀ other, g.DependsOn other node → other ∉ finished
  := by
  constructor
  · intro other hother dependency hneeds
    obtain ⟨before, after, rfl⟩ := List.append_of_mem hother
    apply List.mem_append_left
    apply h.dependenciesFirst before (after ++ node :: later) other (by simp) dependency hneeds
  · intro other hdepends hother
    obtain ⟨before, after, rfl⟩ := List.append_of_mem hother
    have hsplit : before ++ other :: after ++ node :: later
        = before ++ other :: (after ++ node :: later) := by simp
    have hmem : node ∈ before := h.dependenciesFirst.mem_of_dependsOn hsplit hdepends
    have hdisjoint := List.disjoint_of_nodup_append h.nodup
    apply hdisjoint (List.mem_append_left _ hmem) List.mem_cons_self

/-- A build from clear marks that a failing command has ended was stopped at a command of a
node.  Of the nodes that are done none needs one that is not, and none depends on the node
of the command. -/
theorem exists_stoppedAt_of_build {env : Environment World} {world : World} {root : g.Id}
    {cause : CommandError}
    (hfailed :
      (build env g (Marks.clear g) world root).result = .error (.failure (.command cause))) :
  let run := build env g (Marks.clear g) world root
  ∃ node k finished path, StoppedAt env world root cause run node k finished path ∧
    (∀ other ∈ finished, ∀ dependency, g.Needs other dependency → dependency ∈ finished) ∧
    ∀ other, g.DependsOn other node → (run.progress.marks.mark other).visit ≠ .done
  := by
  intro run
  have hsurvey : survey env world g root = none := by
    rw [Option.eq_none_iff_forall_ne_some]
    intro e he
    simp only [build, he] at hfailed
    cases hfailed
    exact (justified_of_survey he).1
  obtain ⟨order, hpost, -⟩ := exists_postOrderOf_of_survey hsurvey
  rcases Walk.cases_of_build_error hpost hsurvey hfailed with
    henter | ⟨done, last, hfollows, hbooked, hway, hfailure⟩
  · exact absurd rfl (Walk.ne_command_of_enter henter)
  · generalize he : Stop.failure (BuildError.command cause) = e at hfailure
    cases hfailure with
    | enter _ henter => exact absurd he.symm (Walk.ne_command_of_enter henter)
    | finish hfinish =>
      subst he
      obtain ⟨k, finished, path, hstopped⟩ :=
        Walk.stoppedAt_of_finish run hpost hfollows hbooked hway hfinish
      obtain ⟨later, hlater⟩ := hstopped.postOrder
      obtain ⟨hneeds, hdepends⟩ := hlater.finished
      refine ⟨_, k, finished, path, hstopped, hneeds, ?_⟩
      intro other hother hdone
      apply hdepends other hother ((hstopped.done_iff other).1 hdone)

theorem exists_stoppedAt_of_build_diamond :
  let run := build (.refusing "app") Graph.diamond (Marks.clear Graph.diamond)
    ["app", "left", "source", "right"] Graph.diamondRoot
  run.result = .error (.failure (.command (.failed "app" (some 1)))) ∧
    ∃ node k finished path,
      StoppedAt (.refusing "app") ["app", "left", "source", "right"] Graph.diamondRoot
          (.failed "app" (some 1)) run node k finished path ∧
        ∀ other, Graph.diamond.DependsOn other node →
          (run.progress.marks.mark other).visit ≠ .done
  := by
  obtain ⟨node, k, finished, path, hstopped, -, hdepends⟩ :=
    exists_stoppedAt_of_build result_build_refusing
  exact ⟨result_build_refusing, node, k, finished, path, hstopped, hdepends⟩

end IncrementalBuild
