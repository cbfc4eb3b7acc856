import IncrementalBuild.Build.Run
import IncrementalBuild.Proofs.Graph.Operation
import IncrementalBuild.Proofs.Graph.PostOrder

/-!
# The node to build

A build of a name begins with the declared node of that name, and there is none if the name is
not declared.  Without a name, it begins with the node declared first, if any node is declared.
-/

namespace IncrementalBuild.Graph

variable {g : Graph} {root : g.Id} {target : String} {e : BuildError}

theorem hasName_name (id : g.Id) :
  g.HasName id.val (g.name id)
  := ⟨g.node id, Array.getElem?_eq_getElem id.isLt, rfl⟩

theorem isDeclared_name (id : g.Id) :
  g.IsDeclared (g.name id) ↔ (g.node id).declared = true
  := isDeclared_name_iff (Array.getElem?_eq_getElem id.isLt)

theorem IsDeclared.exists_name (h : g.IsDeclared target) :
  ∃ root, g.name root = target ∧ (g.node root).declared = true
  := by
  obtain ⟨id, node, hnode, rfl, hdeclared⟩ := h
  obtain ⟨hlt, rfl⟩ := Array.getElem?_eq_some_iff.1 hnode
  exact ⟨⟨id, hlt⟩, rfl, hdeclared⟩

theorem name_of_find? (h : g.find? target = some root) :
  g.name root = target
  := by
  unfold find? at h
  split at h
  · cases h
  · next id hid =>
    cases h
    have hname : g.HasName id target := index_eq_some_iff_hasName.1 hid
    apply (hasName_name _).name_eq hname

theorem root_name (hroot : (g.node root).declared = true) :
  g.root (some (g.name root)) = .ok root
  := by
  simp only [Graph.root, (hasName_name root).find?_eq]
  exact if_pos hroot

theorem map_val_first? (g : Graph) :
  g.first?.map Fin.val = g.first
  := by
  unfold first?
  split
  · next hfirst => exact hfirst.symm
  · next id hfirst => exact hfirst.symm

/-- A declared name is built. -/
theorem IsDeclared.exists_root (h : g.IsDeclared target) :
  ∃ root, g.name root = target ∧ g.root (some target) = .ok root
  := by
  obtain ⟨root, rfl, hdeclared⟩ := h.exists_name
  exact ⟨root, rfl, root_name hdeclared⟩

/-- A name that is not declared is not built. -/
theorem root_some_of_not_isDeclared (h : ¬ g.IsDeclared target) :
  g.root (some target) = .error (.unknownTarget target)
  := by
  cases hfind : g.find? target with
  | none => simp only [root, hfind]
  | some id =>
    rw [← name_of_find? hfind, isDeclared_name] at h
    simp only [root, hfind, if_neg h]

/-- Without a name, the node declared first is built. -/
theorem exists_root_of_first {id : Nat} (h : g.first = some id) :
  ∃ root, g.root none = .ok root
  := by
  have hfirst : g.first? = some ⟨id, g.first_lt id h⟩ := by
    unfold first?
    split
    · next hnone => cases hnone.symm.trans h
    · next other hother =>
      cases hother.symm.trans h
      rfl
  exact ⟨⟨id, g.first_lt id h⟩, by simp only [root, hfirst]⟩

theorem root_of_first_eq_none (h : g.first = none) :
  g.root none = .error .noTargets
  := by
  have hfirst : g.first? = none := by
    unfold first?
    split
    · rfl
    · next id hid => cases h.symm.trans hid
  simp only [root, hfirst]

/-- There is nothing to build because no node is declared, or because the name is not. -/
inductive Rootless (g : Graph) : Option String → BuildError → Prop
  | noTargets : g.first = none → Rootless g none .noTargets
  | unknownTarget {target : String} :
    ¬ g.IsDeclared target → Rootless g (some target) (.unknownTarget target)

theorem rootless_of_root {target? : Option String} (h : g.root target? = .error e) :
  g.Rootless target? e
  := by
  cases target? with
  | none =>
    cases hfirst : g.first with
    | none =>
      cases h.symm.trans (root_of_first_eq_none hfirst)
      exact .noTargets hfirst
    | some id =>
      obtain ⟨root, hroot⟩ := exists_root_of_first hfirst
      cases h.symm.trans hroot
  | some target =>
    by_cases hdeclared : g.IsDeclared target
    · obtain ⟨root, -, hroot⟩ := hdeclared.exists_root
      cases h.symm.trans hroot
    · cases h.symm.trans (root_some_of_not_isDeclared hdeclared)
      exact .unknownTarget hdeclared

/-- Where there is nothing to build, no cycle is reported. -/
theorem root_ne_cyclicDependency (g : Graph) (target : Option String) (names : List String) :
  g.root target ≠ .error (.cyclicDependency names)
  := by
  intro h
  cases rootless_of_root h

theorem root_diamond :
  diamond.root (some "app") = .ok diamondRoot
  := by
  have hdeclared : (diamond.node diamondRoot).declared = true := by decide
  exact root_name hdeclared

end IncrementalBuild.Graph
