import IncrementalBuild.Proofs.Walk.UpToDate

/-!
# Building twice

`Walk.BringsToRun` says that a build comes to run the commands of a node in a given world, and
`WellBehaved` what is asked of the commands there: all of them succeed, they change what can
be seen of no other node, and they leave the file of the node behind, not older than the
files of its dependencies.

A build all of whose commands are well-behaved succeeds, and all that its root reaches is up
to date afterwards: the nodes left behind are at every turn of the loop, as `Walk.Tended`
says, since what can be seen of them does not change any more.  So a second build does
nothing.
-/

namespace IncrementalBuild

variable {g : Graph} {World : Type}

/-! ### Well-behaved commands -/

/-- Commands that are executed one after the other all succeed. -/
def Environment.Succeeds (env : Environment World) (world : World) (commands : List String) :
    Prop :=
  ∀ (earlier later : List String) (command : String), commands = earlier ++ command :: later →
    (env.execute (env.after world earlier) command).1 = .ok ()

/-- All commands of a node, executed in the given world, succeed; they change what can be seen
of no other node the root reaches; and they leave the file of the node behind, not older than
the file of any dependency that is there then. -/
structure WellBehaved (env : Environment World) (root node : g.Id) (world : World) : Prop where
  succeeds : env.Succeeds world (g.commands node)
  others : ∀ other, g.Reaches root other → other ≠ node →
    env.modified (env.after world (g.commands node)) (g.name other)
      = env.modified world (g.name other)
  present : ∃ own,
    env.modified (env.after world (g.commands node)) (g.name node) = .ok (some own) ∧
    ∀ dependency theirs, g.Needs node dependency →
      env.modified (env.after world (g.commands node)) (g.name dependency) = .ok (some theirs) →
      ¬ own < theirs

namespace Walk

/-- The loop of a build from clear marks comes to a walk under way. -/
inductive Reached (env : Environment World) (world : World) (root : g.Id) : Walk g World → Prop
  | start {p : Progress g World} :
    (Progress.start (Marks.clear g) world).enter env none root = (.ok (), p) →
      Reached env world root ⟨[frame g root], p⟩
  | next {walk next : Walk g World} :
    Reached env world root walk → walk.step env = .next next → Reached env world root next

/-- A build from clear marks comes to run the commands of a node, which has to be built; `p`
is what it has done before. -/
def BringsToRun (env : Environment World) (world : World) (root node : g.Id)
    (p : Progress g World) : Prop :=
  (p.marks.mark node).mustBuild = true ∧
    ∃ walk below, Reached env world root walk ∧ walk.paid = ⟨⟨node, [], none⟩ :: below, p⟩

section

variable {env : Environment World} {world : World} {root node : g.Id} {final order : List g.Id}
  {walk : Walk g World} {p q : Progress g World}

/-- The loop comes to a walk, but perhaps for a comparison that is owed. -/
def Attained (env : Environment World) (world : World) (root : g.Id) (walk : Walk g World) :
    Prop :=
  ∃ before, Reached env world root before ∧ before.paid = walk.paid

theorem kept_attained (env : Environment World) (world : World) (root : g.Id)
    (final : List g.Id) :
  Kept env final fun _ walk => Attained env world root walk
  where
  paid _ h := by
    obtain ⟨before, hreached, hpaid⟩ := h
    exact ⟨before, hreached, by rw [hpaid, paid_paid]⟩
  turn {_ walk _ next} hfollows h hturn := by
    obtain ⟨before, hreached, hpaid⟩ := h
    have hstep : before.step env = .next next := by
      rw [← step_paid, hpaid, step_paid, hfollows.step_of_turn hturn]
    exact ⟨next, hreached.next hstep, rfl⟩

theorem Attained.bringsToRun {below : List (Frame g)}
    (h : Attained env world root ⟨⟨node, [], none⟩ :: below, p⟩)
    (hmust : (p.marks.mark node).mustBuild = true) :
  BringsToRun env world root node p
  := by
  obtain ⟨before, hreached, hpaid⟩ := h
  exact ⟨hmust, before, below, hreached, hpaid⟩

/-! ### Nodes that are left up to date -/

/-- The file of a node can be looked at, and is there unless the node is declared. -/
def Enterable (env : Environment World) (world : World) (node : g.Id) : Prop :=
  ∃ found, env.modified world (g.name node) = .ok found ∧
    (found = none → (g.node node).declared = true)

theorem Enterable.enter_ne_error {parent? : Option g.Id} {e : Stop BuildError}
    (h : Enterable env p.world node) :
  p.enter env parent? node ≠ (.error e, q)
  := by
  obtain ⟨found, hfound, hdeclared⟩ := h
  intro henter
  obtain ⟨hfailure, -⟩ := Progress.enterFailure_of_enter henter
  cases hfailure with
  | unreadable hfile => cases hfound.symm.trans hfile
  | missing hundeclared hfile =>
    rw [hfound] at hfile
    rw [hdeclared (Except.ok.inj hfile)] at hundeclared
    cases hundeclared

/-- A node whose commands are well-behaved does not fail when it is finished. -/
theorem not_finishFailure_of_wellBehaved {e : Stop BuildError}
    (h : WellBehaved env root node p.world) :
  ¬ Progress.FinishFailure env node p q e
  := by
  intro hfailure
  cases hfailure with
  | @command earlier later command cause hsplit hbroken =>
    have hsucceeds := h.succeeds earlier later command hsplit
    rw [hbroken.execute] at hsucceeds
    cases hsucceeds
  | unreadable hworld _ hfile =>
    obtain ⟨own, hown, -⟩ := h.present
    rw [hworld, hown] at hfile
    cases hfile

/-- A node whose dependencies have been visited, and which has been compared with all of them, is
up to date if and only if it does not have to be built. -/
theorem upToDate_iff_of_open {found : Option Stamp}
    (hopen : p.Open node found (g.dependencies node)) (habreast : p.Abreast env)
    (hnode : (p.marks.mark node).visit ≠ .unvisited)
    (hdependencies : ∀ dependency, g.Needs node dependency →
      (p.marks.mark dependency).visit ≠ .unvisited) :
  g.UpToDate env p.world node ↔ (p.marks.mark node).mustBuild = false
  := by
  have hfresh := hopen.mustBuild_iff
  have hseen := habreast node hnode
  rw [hopen.modified] at hseen
  constructor
  · rintro ⟨own, hown, hall⟩
    obtain rfl : some own = found := Except.ok.inj (hown.symm.trans hseen)
    rw [← Bool.not_eq_true, hfresh]
    rintro (hnone | ⟨dependency, hneeds, houtdated⟩)
    · cases hnone
    · obtain ⟨theirs, htheirs, hnewer⟩ := hall dependency hneeds
      rw [habreast dependency (hdependencies dependency hneeds)] at htheirs
      rw [Except.ok.inj htheirs] at houtdated
      rcases houtdated with hnone | ⟨_, _, heq, heq', hlt⟩
      · cases hnone
      · cases heq
        cases heq'
        exact hnewer hlt
  · intro hmust
    simp only [hmust, Bool.false_eq_true, false_iff, not_or, not_exists, not_and] at hfresh
    obtain ⟨hfound, hnewer⟩ := hfresh
    obtain ⟨own, rfl⟩ := Option.ne_none_iff_exists'.1 hfound
    refine ⟨own, hseen, ?_⟩
    intro dependency hneeds
    obtain ⟨hthere, hnotNewer⟩ := hnewer dependency hneeds
    obtain ⟨theirs, htheirs⟩ := Option.ne_none_iff_exists'.1 hthere
    refine ⟨theirs, ?_, hnotNewer own theirs rfl htheirs⟩
    rw [habreast dependency (hdependencies dependency hneeds), htheirs]

/-- A node that has dealt with its dependencies is up to date if and only if it does not have to
be built. -/
theorem Follows.upToDate_iff {below : List (Frame g)}
    (hfollows : Follows final order ⟨⟨node, [], none⟩ :: below, p⟩)
    (hongoing : Ongoing order p ⟨node, [], none⟩) (habreast : p.Abreast env) :
  g.UpToDate env p.world node ↔ (p.marks.mark node).mustBuild = false
  := by
  obtain ⟨hneeds, found, hopen⟩ := hongoing.compared
  have hnode : (p.marks.mark node).visit = .inProgress :=
    (hfollows.inProgress_iff node).2 List.mem_cons_self
  apply upToDate_iff_of_open hopen habreast (by simp [hnode])
  intro dependency hdependency
  have hdone : (p.marks.mark dependency).visit = .done :=
    (hfollows.done_iff dependency).2 (hneeds dependency hdependency)
  simp [hdone]

/-- What has been seen is what there is, the nodes left behind are up to date, and the others
the root reaches can be entered. -/
structure Tended (env : Environment World) (root : g.Id) (order : List g.Id)
    (p : Progress g World) : Prop where
  enterable : ∀ node, g.Reaches root node → Enterable env p.world node
  abreast : p.Abreast env
  upToDate : ∀ node ∈ order, g.UpToDate env p.world node

theorem Tended.enter {found : Option Stamp} (h : Tended env root order p)
    (hentered : Progress.Entered env node found p q) :
  Tended env root order q
  where
  enterable := by simpa only [hentered.world] using h.enterable
  abreast := h.abreast.enter hentered
  upToDate := by simpa only [hentered.world] using h.upToDate

theorem Tended.compare (h : Tended env root order p) (node dependency : g.Id) :
  Tended env root order (p.compare node dependency)
  where
  enterable := by simpa using h.enterable
  abreast := h.abreast.compare node dependency
  upToDate := by simpa using h.upToDate

/-- A node that does not have to be built is up to date when it is left. -/
theorem Tended.leave {below : List (Frame g)} (h : Tended env root order p)
    (hfollows : Follows final order ⟨⟨node, [], none⟩ :: below, p⟩)
    (hongoing : Ongoing order p ⟨node, [], none⟩)
    (hmust : (p.marks.mark node).mustBuild = false) :
  Tended env root (order ++ [node]) (p.leave node)
  := by
  have hnode : (p.marks.mark node).visit = .inProgress :=
    (hfollows.inProgress_iff node).2 List.mem_cons_self
  have huptodate := (hfollows.upToDate_iff hongoing h.abreast).2 hmust
  refine ⟨h.enterable, h.abreast.leave (by simp [hnode]), ?_⟩
  intro other hother
  rcases List.mem_append.1 hother with hold | hnew
  · exact h.upToDate other hold
  · rw [List.mem_singleton.1 hnew]
    exact huptodate

/-- What can be seen of a node and its dependencies decides whether the node is up to date. -/
theorem upToDate_congr {world' : World} (h : g.UpToDate env world node)
    (hnode : env.modified world' (g.name node) = env.modified world (g.name node))
    (hdependencies : ∀ dependency, g.Needs node dependency →
      env.modified world' (g.name dependency) = env.modified world (g.name dependency)) :
  g.UpToDate env world' node
  := by
  obtain ⟨own, hown, hall⟩ := h
  refine ⟨own, by rw [hnode, hown], ?_⟩
  intro dependency hneeds
  rw [hdependencies dependency hneeds]
  exact hall dependency hneeds

/-- A node whose commands are well-behaved is up to date after them, and the nodes left behind
still are. -/
theorem Tended.rebuild {refreshed : Option Stamp} {below : List (Frame g)}
    (h : Tended env root order p) (hpost : g.PostOrderOf root final)
    (hfollows : Follows final order ⟨⟨node, [], none⟩ :: below, p⟩)
    (hclosed : AllClosed order p) (hongoing : Ongoing order p ⟨node, [], none⟩)
    (hbehaved : WellBehaved env root node p.world)
    (hrebuilt : Progress.Rebuilt env node refreshed p q) :
  Tended env root (order ++ [node]) q
  := by
  obtain ⟨hneeds, -⟩ := hongoing.compared
  obtain ⟨own, hown, hnewer⟩ := hbehaved.present
  have hothers := hbehaved.others
  rw [← hrebuilt.world] at hown hnewer hothers
  obtain rfl : some own = refreshed := Except.ok.inj (hown.symm.trans hrebuilt.file)
  have hnode : node ∉ order := hfollows.not_mem_order_of_mem_path List.mem_cons_self
  have hsame : ∀ other ∈ order,
      env.modified q.world (g.name other) = env.modified p.world (g.name other) := by
    intro other hother
    apply hothers other (hfollows.reaches_of_mem_order hpost hother)
    exact fun heq => hnode (heq ▸ hother)
  have huptodate : g.UpToDate env q.world node := by
    refine ⟨own, hown, ?_⟩
    intro dependency hdependency
    obtain ⟨theirs, htheirs, -⟩ := h.upToDate dependency (hneeds dependency hdependency)
    rw [← hsame dependency (hneeds dependency hdependency)] at htheirs
    exact ⟨theirs, htheirs, hnewer dependency theirs hdependency htheirs⟩
  constructor
  · intro other hreaches
    by_cases heq : other = node
    · rw [heq]
      exact ⟨some own, hown, by simp⟩
    · obtain ⟨found, hfound, hdeclared⟩ := h.enterable other hreaches
      exact ⟨found, by rw [hothers other hreaches heq, hfound], hdeclared⟩
  · intro other hvisit
    rw [hrebuilt.mark] at hvisit ⊢
    split
    · next heq => rw [heq, hown, Option.some_or]
    · next hne =>
      rw [if_neg hne] at hvisit
      rw [hothers other (hfollows.reaches_of_visit hpost hvisit) hne]
      exact h.abreast other hvisit
  · intro other hother
    rcases List.mem_append.1 hother with hold | hnew
    · apply upToDate_congr (h.upToDate other hold) (hsame other hold)
      intro dependency hdependency
      exact hsame dependency ((hclosed other hold).1 dependency hdependency)
    · rw [List.mem_singleton.1 hnew]
      exact huptodate

section

variable (hpost : g.PostOrderOf root final)
  (hbehaved : ∀ node p, BringsToRun env world root node p → WellBehaved env root node p.world)

include hpost hbehaved

/-- Where all commands are well-behaved, every turn of the loop leaves the nodes left behind up
to date. -/
theorem kept_tended :
  Kept env final fun order walk =>
    (Histories order walk ∧ Attained env world root walk) ∧ Tended env root order walk.progress
  := by
  apply ((kept_histories env final).and (kept_attained env world root final)).extend
  · intro order walk _ _ htended
    match walk with
    | ⟨[], _⟩ => exact htended
    | ⟨⟨_, _, none⟩ :: _, _⟩ => exact htended
    | ⟨⟨node, _, some dependency⟩ :: _, _⟩ => exact htended.compare node dependency
  · rintro order walk order' next hfollows ⟨hhistories, hattained⟩ htended hturn
    cases hturn with
    | pass _ => exact htended
    | descend _ henter =>
      obtain ⟨found, hentered⟩ := Progress.entered_of_enter henter
      exact htended.enter hentered
    | @leave node below p _ hfinish =>
      have hongoing := hhistories.ongoing _ List.mem_cons_self
      cases hmust : (p.marks.mark node).mustBuild with
      | false =>
        rw [Progress.eq_leave_of_finish hmust hfinish]
        exact htended.leave hfollows hongoing hmust
      | true =>
        obtain ⟨refreshed, hrebuilt⟩ := Progress.rebuilt_of_finish hmust hfinish
        exact htended.rebuild hpost hfollows hhistories.closed hongoing
          (hbehaved node p (hattained.bringsToRun hmust)) hrebuilt

theorem Tended.not_failure {e : Stop BuildError} (hfollows : Follows final order walk)
    (hattained : Attained env world root walk) (htended : Tended env root order walk.progress) :
  ¬ Failure env walk e q
  := by
  intro hfailure
  cases hfailure with
  | enter _ henter =>
    have hreaches := hfollows.reaches_of_mem_pending hpost List.mem_cons_self
    exact (htended.enterable _ hreaches).enter_ne_error henter
  | @finish node _ p _ _ hfinish =>
    obtain ⟨hmust, hfailure⟩ := Progress.finishFailure_of_finish hfinish
    have hgood := hbehaved node p (hattained.bringsToRun hmust)
    exact not_finishFailure_of_wellBehaved hgood hfailure

end

end

end Walk

section

variable {env : Environment World} {world : World} {root : g.Id}

/-- After a survey that has met no error all that the root reaches can be entered, if it can be
looked at. -/
theorem Walk.enterable_of_survey (hroot : (g.node root).declared = true)
    (hsurvey : survey env world g root = none)
    (hreadable : ∀ node, g.Reaches root node →
      ∃ found, env.modified world (g.name node) = .ok found) :
  ∀ node, g.Reaches root node → Enterable env world node
  := by
  obtain ⟨-, -, hmet⟩ := exists_postOrderOf_of_survey hsurvey
  intro node hreaches
  obtain ⟨found, hfound⟩ := hreadable node hreaches
  refine ⟨found, hfound, ?_⟩
  rintro rfl
  rcases hmet node hreaches with rfl | hdeclared | ⟨time, htime⟩
  · exact hroot
  · exact hdeclared
  · cases hfound.symm.trans htime

/-- A build all of whose commands are well-behaved succeeds, and leaves all that its root
reaches up to date. -/
theorem upToDate_of_build (hroot : (g.node root).declared = true)
    (hsurvey : survey env world g root = none)
    (hreadable : ∀ node, g.Reaches root node →
      ∃ found, env.modified world (g.name node) = .ok found)
    (hbehaved : ∀ node p, Walk.BringsToRun env world root node p →
      WellBehaved env root node p.world) :
  let run := build env g (Marks.clear g) world root
  (∃ outcome, run.result = .ok outcome) ∧
    ∀ node, g.Reaches root node → g.UpToDate env run.progress.world node
  := by
  intro run
  obtain ⟨order, hpost, -⟩ := exists_postOrderOf_of_survey hsurvey
  have henterable := Walk.enterable_of_survey hroot hsurvey hreadable
  have hstart : ∀ p, (Progress.start (Marks.clear g) world).enter env none root = (.ok (), p) →
      (Walk.Histories [] ⟨[Walk.frame g root], p⟩ ∧
        Walk.Attained env world root ⟨[Walk.frame g root], p⟩) ∧ Walk.Tended env root [] p := by
    intro p henter
    obtain ⟨found, hentered⟩ := Progress.entered_of_enter henter
    have htended : Walk.Tended env root [] (Progress.start (Marks.clear g) world) :=
      ⟨henterable, by simp [Progress.Abreast, Progress.start, Mark.clear], by simp⟩
    exact ⟨⟨Walk.histories_of_enter_start henter, _, .start henter, rfl⟩, htended.enter hentered⟩
  obtain ⟨hresult, -, htended⟩ :=
    (Walk.kept_tended hpost hbehaved).result_of_build hpost hstart hsurvey
      (fun _ _ => (henterable root .refl).enter_ne_error)
      (fun _ _ _ _ hfollows hinv => hinv.2.not_failure hpost hbehaved hfollows hinv.1.2)
  refine ⟨⟨_, hresult⟩, ?_⟩
  intro node hreaches
  apply htended.upToDate node (hpost.mem_iff.2 hreaches)

/-- A build from clear marks whose survey meets no error, where every file can be looked at and
all commands are well-behaved, succeeds; and another one from clear marks, in the world it has
led to, succeeds without executing a command. -/
theorem build_again_of_build (hroot : (g.node root).declared = true)
    (hsurvey : survey env world g root = none)
    (hreadable : ∀ node, g.Reaches root node →
      ∃ found, env.modified world (g.name node) = .ok found)
    (hbehaved : ∀ node p, Walk.BringsToRun env world root node p →
      WellBehaved env root node p.world) :
  let first := build env g (Marks.clear g) world root
  let second := build env g (Marks.clear g) first.progress.world root
  (∃ outcome, first.result = .ok outcome) ∧ second.result = .ok ⟨g.name root, 0, []⟩ ∧
    second.commands = [] ∧ second.progress.world = first.progress.world
  := by
  intro first second
  obtain ⟨hok, hall⟩ := upToDate_of_build hroot hsurvey hreadable hbehaved
  obtain ⟨order, hpost, -⟩ := exists_postOrderOf_of_survey hsurvey
  exact ⟨hok, build_of_upToDate (survey_of_upToDate hpost.not_reachesCycle hall) hall⟩

end

/-- Where commands only make files new, those of a node are well-behaved if they make its file
new, or if there is nothing that it needs. -/
theorem wellBehaved_renewing {root node : g.Id} {new : List String}
    (h : g.commands node = [g.name node] ∨ g.commands node = [] ∧ g.dependencies node = []) :
  WellBehaved .renewing root node new
  := by
  have hafter : ∀ commands, Environment.after .renewing new commands = commands.reverse ++ new := by
    intro commands
    induction commands using List.reverseRecOn with
    | nil => rfl
    | append_singleton commands command ih =>
      rw [Environment.after_snoc, ih]
      simp [Environment.renewing]
  constructor
  · intro earlier later command _
    rfl
  · intro other _ hother
    have hname : g.name other ≠ g.name node := fun heq => hother (g.name_injective heq)
    rw [hafter]
    rcases h with h | ⟨h, -⟩ <;> simp [h, Environment.renewing, hname]
  · rw [hafter]
    rcases h with h | ⟨h, hnone⟩
    · refine ⟨.tick 1, by simp [h, Environment.renewing], ?_⟩
      intro dependency theirs _ htheirs
      simp only [Environment.renewing, Except.ok.injEq, Option.some.injEq] at htheirs
      rw [← htheirs]
      split <;> decide
    · refine ⟨_, rfl, ?_⟩
      intro dependency _ hneeds
      rw [Graph.Needs, hnone] at hneeds
      cases hneeds

/-- The source of `diamond` is newer than all that is made from it; once all has been made
again, nothing is to be done. -/
theorem build_again_of_build_diamond :
  let first := build .renewing Graph.diamond (Marks.clear Graph.diamond) ["source"]
    Graph.diamondRoot
  let second := build .renewing Graph.diamond (Marks.clear Graph.diamond) first.progress.world
    Graph.diamondRoot
  first.result = .ok ⟨"app", 3, ["left", "right", "app"]⟩ ∧ second.result = .ok ⟨"app", 0, []⟩ ∧
    second.commands = []
  := by
  have hsurvey : survey .renewing ["source"] Graph.diamond Graph.diamondRoot = none := by cbv
  have hcommands : ∀ node : Graph.diamond.Id,
      Graph.diamond.commands node = [Graph.diamond.name node] ∨
        Graph.diamond.commands node = [] ∧ Graph.diamond.dependencies node = [] := by
    decide
  obtain ⟨-, hresult, hnone, -⟩ := build_again_of_build (by decide) hsurvey
    (fun _ _ => ⟨_, rfl⟩) (fun node _ _ => wellBehaved_renewing (hcommands node))
  exact ⟨by cbv, hresult, hnone⟩

end IncrementalBuild
