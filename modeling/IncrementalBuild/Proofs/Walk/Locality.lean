import IncrementalBuild.Proofs.Graph.Root
import IncrementalBuild.Proofs.Walk.Likeness
import Mathlib.Data.Fin.Tuple.Take

/-!
# A build depends on what its target reaches

If two graphs agree name by name below a target, they are alike along the counterparts below it,
so that builds of the target, begun with clear marks, cannot be told apart: they have the same
result, give the same commands, and leave the same world and the same marks on all names below
the target.  It does not matter which numbers the nodes have and what else is in the graphs.
-/

namespace IncrementalBuild

/-- Builds of a target cannot be told apart if the graphs agree name by name below it. -/
theorem buildTarget_eq_of_sameBelow {World : Type} {g g' : Graph} {target : String}
    (env : Environment World) (world : World) (htarget : g.IsDeclared target)
    (htarget' : g'.IsDeclared target) (hsame : Graph.SameBelow g g' target) :
  let run := buildTarget env g (Marks.clear g) world (some target)
  let run' := buildTarget env g' (Marks.clear g') world (some target)
  run.result = run'.result ∧ run.commands = run'.commands ∧ run.events = run'.events ∧
    run.progress.world = run'.progress.world ∧
    (∀ name, (∃ a, g.Below target a ∧ g.name a = name) ↔
      ∃ b, g'.Below target b ∧ g'.name b = name) ∧
    ∀ a b, g.Below target a → g'.Below target b → g.name a = g'.name b →
      run.progress.marks.mark a = run'.progress.marks.mark b
  := by
  obtain ⟨root, hname, hroot⟩ := htarget.exists_root
  obtain ⟨root', hname', hroot'⟩ := htarget'.exists_root
  have hroots : Graph.Counterparts g g' target root root' :=
    ⟨⟨root, hname, .refl⟩, ⟨root', hname', .refl⟩, hname.trans hname'.symm⟩
  have halike : Run.Alike (Graph.Counterparts g g' target) Eq
      (build env g (Marks.clear g) world root) (build env g' (Marks.clear g') world root') := by
    apply build_alike hsame.alike (.refl env) _ rfl hroots
    intro a b _
    rw [Marks.mark_clear, Marks.mark_clear]
  simp only [buildTarget, hroot, hroot']
  refine ⟨halike.result, halike.progress.commands, halike.events, halike.progress.world,
    hsame.below_iff hname hname', ?_⟩
  intro a b ha hb hab
  apply halike.progress.mark ⟨ha, hb, hab⟩

/-! ### The program among other targets -/

namespace Graph

/-- The names of `crowdedDiamond`. -/
def crowdedNames : Graph :=
  (((((empty.pushNode "lost" (by simp [empty])).pushNode "source"
    (by simp [pushNode, empty])).pushNode "wheel" (by simp [pushNode, empty])).pushNode "right"
    (by simp [pushNode, empty])).pushNode "left" (by simp [pushNode, empty])).pushNode "app"
    (by simp [pushNode, empty])

/-- The program of `diamond` with other numbers, and a target that is made from itself, from
something that is lost, and from the program. -/
def crowdedDiamond : Graph :=
  (((crowdedNames.withRule ⟨5, by decide⟩ [⟨4, by decide⟩, ⟨3, by decide⟩] ["app"]).withRule
    ⟨4, by decide⟩ [⟨1, by decide⟩] ["left"]).withRule ⟨3, by decide⟩ [⟨1, by decide⟩]
    ["right"]).withRule ⟨2, by decide⟩ [⟨2, by decide⟩, ⟨0, by decide⟩, ⟨5, by decide⟩] ["wheel"]

/-- The program is the same in both. -/
theorem sameBelow_crowdedDiamond :
  SameBelow diamond crowdedDiamond "app"
  := by
  have hsame : ∀ a b, diamond.name a = crowdedDiamond.name b →
      (diamond.node a).declared = (crowdedDiamond.node b).declared ∧
        (diamond.dependencies a).map diamond.name
          = (crowdedDiamond.dependencies b).map crowdedDiamond.name ∧
        (diamond.node a).commands = (crowdedDiamond.node b).commands := by
    decide
  intro a b _ _ hab
  obtain ⟨hdeclared, hdependencies, hcommands⟩ := hsame a b hab
  exact ⟨hdeclared, hdependencies, hcommands⟩

end Graph

/-- The wheel is not made when the program is. -/
theorem buildTarget_eq_of_sameBelow_diamond :
  let run := buildTarget .touching Graph.diamond (Marks.clear Graph.diamond) ["source"]
    (some "app")
  let run' := buildTarget .touching Graph.crowdedDiamond (Marks.clear Graph.crowdedDiamond)
    ["source"] (some "app")
  Graph.diamond.IsDeclared "app" ∧ Graph.crowdedDiamond.IsDeclared "app" ∧
    Graph.SameBelow Graph.diamond Graph.crowdedDiamond "app" ∧ run'.result = run.result ∧
    run'.commands = ["left", "right", "app"]
  := by
  have hdeclared : Graph.diamond.IsDeclared "app" := ⟨0, _, rfl, rfl, rfl⟩
  have hdeclared' : Graph.crowdedDiamond.IsDeclared "app" := ⟨5, _, rfl, rfl, rfl⟩
  obtain ⟨hresult, hcommands, -⟩ := buildTarget_eq_of_sameBelow .touching ["source"] hdeclared
    hdeclared' Graph.sameBelow_crowdedDiamond
  refine ⟨hdeclared, hdeclared', Graph.sameBelow_crowdedDiamond, hresult.symm, ?_⟩
  rw [← hcommands]
  simp only [buildTarget, Graph.root_diamond]
  cbv

end IncrementalBuild
