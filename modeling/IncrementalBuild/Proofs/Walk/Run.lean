import IncrementalBuild.Proofs.Survey.Exactness
import IncrementalBuild.Proofs.Walk.Turn
import Mathlib.Data.Fin.Tuple.Take

/-!
# Builds from clear marks

A build whose survey meets no error, begun with no node visited, follows the post-order of
its root.  `Walk.Kept.walk_cases` says how it ends, for a property that every turn of its
loop keeps, and `Walk.Kept.of_build` and `Walk.Kept.of_build_error` what that means for a
build that succeeds and for one that does not.  `Walk.Kept.result_of_build` is for properties
that exclude every failure.
-/

namespace IncrementalBuild

variable {g : Graph} {World : Type} {env : Environment World} {world : World} {root : g.Id}

/-- A build from clear marks ends as its walk does, once the survey has met no error. -/
theorem build_of_walk_ok {p : Progress g World} (h : survey env world g root = none)
    (hwalk : walk env g root (Progress.start (Marks.clear g) world) = (.ok (), p)) :
  (build env g (Marks.clear g) world root).result
      = .ok ⟨g.name root, p.commandsRun, p.rebuilt.toList.map g.name⟩ ∧
    (build env g (Marks.clear g) world root).progress = p
  := by simp [build, h, hwalk, Mark.clear]

theorem build_of_walk_error {e : Stop BuildError} {p : Progress g World}
    (h : survey env world g root = none)
    (hwalk : walk env g root (Progress.start (Marks.clear g) world) = (.error e, p)) :
  (build env g (Marks.clear g) world root).result = .error e ∧
    (build env g (Marks.clear g) world root).progress = p
  := by simp [build, h, hwalk, Mark.clear]

/-- A build that succeeds has met no error in its survey. -/
theorem survey_of_build {marks : Marks g} {outcome : Outcome}
    (h : (build env g marks world root).result = .ok outcome) :
  survey env world g root = none
  := by
  unfold build at h
  split at h
  · simp at h
  · assumption

namespace Walk

/-- How a walk from the root ends: the root cannot be entered, or nothing is left to do, or
a turn of the loop fails. -/
theorem Kept.walk_cases {final : List g.Id} {Inv : List g.Id → Walk g World → Prop}
    (hkept : Kept env final Inv) (hpost : g.PostOrderOf root final)
    (hstart : ∀ p, (Progress.start (Marks.clear g) world).enter env none root = (.ok (), p) →
      Inv [] ⟨[frame g root], p⟩) :
  (∃ e q, (Progress.start (Marks.clear g) world).enter env none root = (.error e, q) ∧
      walk env g root (Progress.start (Marks.clear g) world) = (.error e, q)) ∨
    (∃ q, walk env g root (Progress.start (Marks.clear g) world) = (.ok (), q) ∧
      Follows final final ⟨[], q⟩ ∧ Inv final ⟨[], q⟩) ∨
    ∃ order last e q, walk env g root (Progress.start (Marks.clear g) world) = (.error e, q) ∧
      Follows final order last ∧ Inv order last ∧ Failure env last e q
  := by
  unfold walk
  split
  · next e q henter => exact .inl ⟨e, q, henter, rfl⟩
  · next p henter => exact .inr (hkept.result (Follows.start hpost henter) (hstart p henter))

/-- What every turn keeps holds at the end of a build that succeeds, which has left behind
all nodes of the post-order of its root. -/
theorem Kept.of_build {final : List g.Id} {Inv : List g.Id → Walk g World → Prop}
    {outcome : Outcome} (hkept : Kept env final Inv) (hpost : g.PostOrderOf root final)
    (hstart : ∀ p, (Progress.start (Marks.clear g) world).enter env none root = (.ok (), p) →
      Inv [] ⟨[frame g root], p⟩)
    (hok : (build env g (Marks.clear g) world root).result = .ok outcome) :
  let progress := (build env g (Marks.clear g) world root).progress
  Follows final final ⟨[], progress⟩ ∧ Inv final ⟨[], progress⟩ ∧
    outcome = ⟨g.name root, progress.commandsRun, progress.rebuilt.toList.map g.name⟩
  := by
  have hsurvey := survey_of_build hok
  rcases hkept.walk_cases hpost hstart with
    ⟨e, q, -, hwalk⟩ | ⟨q, hwalk, hfollows, hinv⟩ | ⟨-, -, e, q, hwalk, -, -, -⟩
  · simp [(build_of_walk_error hsurvey hwalk).1] at hok
  · obtain ⟨hresult, hprogress⟩ := build_of_walk_ok hsurvey hwalk
    rw [hresult] at hok
    cases hok
    rw [hprogress]
    exact ⟨hfollows, hinv, rfl⟩
  · simp [(build_of_walk_error hsurvey hwalk).1] at hok

/-- What every turn keeps holds before the failure that ends a build with an error, unless
the build cannot even enter its root. -/
theorem Kept.of_build_error {final : List g.Id} {Inv : List g.Id → Walk g World → Prop}
    {e : Stop BuildError} (hkept : Kept env final Inv) (hpost : g.PostOrderOf root final)
    (hstart : ∀ p, (Progress.start (Marks.clear g) world).enter env none root = (.ok (), p) →
      Inv [] ⟨[frame g root], p⟩)
    (hsurvey : survey env world g root = none)
    (herror : (build env g (Marks.clear g) world root).result = .error e) :
  let progress := (build env g (Marks.clear g) world root).progress
  (Progress.start (Marks.clear g) world).enter env none root = (.error e, progress) ∨
    ∃ order last, Follows final order last ∧ Inv order last ∧ Failure env last e progress
  := by
  rcases hkept.walk_cases hpost hstart with
    ⟨e', q, henter, hwalk⟩ | ⟨q, hwalk, -, -⟩
      | ⟨order, last, e', q, hwalk, hfollows, hinv, hfailure⟩
  · obtain ⟨hresult, hprogress⟩ := build_of_walk_error hsurvey hwalk
    rw [hresult] at herror
    cases herror
    rw [hprogress]
    exact .inl henter
  · simp [(build_of_walk_ok hsurvey hwalk).1] at herror
  · obtain ⟨hresult, hprogress⟩ := build_of_walk_error hsurvey hwalk
    rw [hresult] at herror
    cases herror
    rw [hprogress]
    exact .inr ⟨order, last, hfollows, hinv, hfailure⟩

/-- A build succeeds if its root can be entered and what every turn keeps excludes a failure;
it holds then at the end of the build. -/
theorem Kept.result_of_build {final : List g.Id} {Inv : List g.Id → Walk g World → Prop}
    (hkept : Kept env final Inv) (hpost : g.PostOrderOf root final)
    (hstart : ∀ p, (Progress.start (Marks.clear g) world).enter env none root = (.ok (), p) →
      Inv [] ⟨[frame g root], p⟩)
    (hsurvey : survey env world g root = none)
    (henter : ∀ e q, (Progress.start (Marks.clear g) world).enter env none root ≠ (.error e, q))
    (hturn : ∀ order last e q, Follows final order last → Inv order last →
      ¬ Failure env last e q) :
  let run := build env g (Marks.clear g) world root
  run.result
      = .ok ⟨g.name root, run.progress.commandsRun, run.progress.rebuilt.toList.map g.name⟩ ∧
    Inv final ⟨[], run.progress⟩
  := by
  intro run
  cases hresult : run.result with
  | error e =>
    rcases hkept.of_build_error hpost hstart hsurvey hresult with
      hroot | ⟨order, last, hfollows, hinv, hfailure⟩
    · exact absurd hroot (henter e _)
    · exact absurd hfailure (hturn order last e _ hfollows hinv)
  | ok outcome =>
    obtain ⟨-, hinv, rfl⟩ := hkept.of_build hpost hstart hresult
    exact ⟨rfl, hinv⟩

end Walk

/-- The right part of `diamond` is older than its source, so it is made again, and so is the
program. -/
theorem result_build_diamond :
  (build .touching Graph.diamond (Marks.clear Graph.diamond) ["app", "left", "source", "right"]
    Graph.diamondRoot).result = .ok ⟨"app", 2, ["right", "app"]⟩
  := by cbv

end IncrementalBuild
