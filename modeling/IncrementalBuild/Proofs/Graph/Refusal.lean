import IncrementalBuild.Proofs.Graph.Evolution

/-!
# Operations that are refused

To declare a name, or to add a dependency, is to give the name a node first and to look for the
fault then.  A refusal leaves no trace of this, neither in the graph nor in its marks: a name that
is declared already, or is a dependency already, had its node before.  So a graph has become what
it would have become if the refused operations had not been tried.
-/

namespace IncrementalBuild

/-- Marks that are carried to the graph they belong to are as they were. -/
theorem Marks.carry_self {g : Graph} (marks : Marks g) :
  marks.carry g = marks
  := by
  apply Vector.toArray_inj.1
  have hsize : marks.toArray.size = g.size := marks.size_toArray
  simp [carry, ofArray, hsize]

/-- An operation on a graph that was not carried out. -/
def Deed.isRefused : Deed → Bool
  | declared _ (.error _) => true
  | depended _ _ (.error _) => true
  | _ => false

namespace Graph

variable {g after : Graph} {marks : Marks g}

/-- An operation has left the graph and its marks as it found them. -/
def Undisturbed (marks : Marks g) (after : Graph) : Prop :=
  (⟨after, marks.carry after⟩ : (g : Graph) × Marks g) = ⟨g, marks⟩

theorem undisturbed_of_eq (h : after = g) :
  Undisturbed marks after
  := by
  subst h
  rw [Undisturbed, marks.carry_self]

/-! ### One refusal -/

theorem declare_eq_error_iff (g : Graph) (name : String) :
  (∃ e, (g.declare name).2 = .error e) ↔ g.IsDeclared name
  := by
  have hdeclaring := declaring_declare g name
  generalize g.declare name = answer at hdeclaring
  cases hdeclaring with
  | refused hdeclared => simp [hdeclared]
  | done hdeclared => simp [hdeclared]

theorem eq_of_declare_error {name : String} {e : DuplicateTarget}
    (h : (g.declare name).2 = .error e) :
  e = ⟨name⟩ ∧ (g.declare name).1 = g
  := by
  have hdeclaring := declaring_declare g name
  generalize g.declare name = answer at h hdeclaring
  cases hdeclaring with
  | refused =>
    cases h
    exact ⟨rfl, rfl⟩
  | done => cases h

theorem depend_eq_error_iff (target : g.Id) (dependency : String) :
  (∃ e, (g.depend target dependency).2 = .error e)
    ↔ ∃ id, g.name id = dependency ∧ g.Needs target id
  := by
  have hnode : g.nodes[target.val]? = some (g.node target) :=
    Array.getElem?_eq_getElem target.isLt
  have hdepending := depending_depend dependency hnode
  generalize g.depend target dependency = answer at hdepending
  cases hdepending with
  | refused hold hid hmem =>
    cases hnode.symm.trans hold
    have hneeds : g.Needs target ⟨_, hid.lt_size⟩ := needs_iff.2 hmem
    simpa using ⟨_, (hasName_name _).name_eq hid, hneeds⟩
  | done hold hinterned hmem =>
    cases hnode.symm.trans hold
    have hnone : ∀ id, g.name id = dependency → ¬ g.Needs target id := by
      rintro other rfl hneeds
      have hother := hinterned.hasName_mono (hasName_name other)
      rw [hinterned.hasName.id_eq hother] at hmem
      exact hmem (needs_iff.1 hneeds)
    simpa using hnone

theorem eq_of_depend_error {target : g.Id} {dependency : String} {e : DuplicateDependency}
    (h : (g.depend target dependency).2 = .error e) :
  e = ⟨g.name target, dependency⟩ ∧ (g.depend target dependency).1 = g
  := by
  have hnode : g.nodes[target.val]? = some (g.node target) :=
    Array.getElem?_eq_getElem target.isLt
  have hdepending := depending_depend dependency hnode
  generalize g.depend target dependency = answer at h hdepending
  cases hdepending with
  | refused hold =>
    cases hnode.symm.trans hold
    cases h
    exact ⟨rfl, rfl⟩
  | done => cases h

/-! ### Refusals among other deeds -/

variable {start : Graph} {begun : Marks start} {deeds : List Deed}

/-- What has been left undisturbed has come about by the same deeds. -/
theorem Undisturbed.evolves (h : Undisturbed marks after)
    (hevolves : Evolves start begun deeds g marks) :
  Evolves start begun deeds after (marks.carry after)
  := by
  have hpair : ∀ pair : (g : Graph) × Marks g, pair = ⟨g, marks⟩ →
      Evolves start begun deeds pair.1 pair.2 := by
    rintro _ rfl
    exact hevolves
  exact hpair _ h

/-- The deeds that were refused may be left out. -/
theorem Evolves.filter_isRefused (h : Evolves start begun deeds g marks) :
  Evolves start begun (deeds.filter (!·.isRefused)) g marks
  := by
  induction h with
  | rest => exact .rest
  | intern name _ ih => simpa [Deed.isRefused] using ih.intern name
  | @declare deeds g marks name _ ih =>
    cases hanswer : (g.declare name).2 with
    | ok id =>
      have hnext := ih.declare name
      rw [hanswer] at hnext
      simpa [Deed.isRefused] using hnext
    | error e =>
      have hsame := (undisturbed_of_eq (eq_of_declare_error hanswer).2).evolves ih
      simpa [Deed.isRefused] using hsame
  | @depend deeds g marks target dependency _ ih =>
    cases hanswer : (g.depend target dependency).2 with
    | ok id =>
      have hnext := ih.depend target dependency
      rw [hanswer] at hnext
      simpa [Deed.isRefused] using hnext
    | error e =>
      have hsame := (undisturbed_of_eq (eq_of_depend_error hanswer).2).evolves ih
      simpa [Deed.isRefused] using hsame
  | addCommand target command _ ih => simpa [Deed.isRefused] using ih.addCommand target command
  | clear _ ih => simpa [Deed.isRefused] using ih.clear
  | build env world target _ ih => simpa [Deed.isRefused] using ih.build env world target
  | buildNode env world root _ ih => simpa [Deed.isRefused] using ih.buildNode env world root

/-- Whatever has been done to a graph, declaring a name is refused exactly if the name is declared
already, and adding a dependency to a node exactly if the node has it already.  A refusal names
what it is about, and the graph and its marks are the same after it as before it.  So they are
also what they would be if none of the operations that were refused had been tried. -/
theorem undisturbed_of_evolves (h : Evolves start begun deeds g marks) :
  (∀ name : String,
      ((∃ e, (g.declare name).2 = .error e) ↔ g.IsDeclared name) ∧
      ∀ e, (g.declare name).2 = .error e →
        e = ⟨name⟩ ∧ Undisturbed marks (g.declare name).1) ∧
    (∀ (target : g.Id) (dependency : String),
      ((∃ e, (g.depend target dependency).2 = .error e)
        ↔ ∃ id, g.name id = dependency ∧ g.Needs target id) ∧
      ∀ e, (g.depend target dependency).2 = .error e →
        e = ⟨g.name target, dependency⟩ ∧ Undisturbed marks (g.depend target dependency).1) ∧
    Evolves start begun (deeds.filter (!·.isRefused)) g marks
  := by
  refine ⟨fun name => ⟨g.declare_eq_error_iff name, fun e he => ?_⟩,
    fun target dependency => ⟨depend_eq_error_iff target dependency, fun e he => ?_⟩,
    h.filter_isRefused⟩
  · obtain ⟨hname, hsame⟩ := eq_of_declare_error he
    exact ⟨hname, undisturbed_of_eq hsame⟩
  · obtain ⟨hname, hsame⟩ := eq_of_depend_error he
    exact ⟨hname, undisturbed_of_eq hsame⟩

theorem undisturbed_of_evolves_library :
  ∃ (result : Except (Stop BuildError) Outcome) (g : Graph) (marks : Marks g),
    Evolves ∅ (.clear ∅) (libraryDeeds result) g marks ∧
      (∃ e, (g.declare "lib").2 = .error e ∧ e = ⟨"lib"⟩ ∧
        Undisturbed marks (g.declare "lib").1) ∧
      (¬ ∃ e, (g.declare "tool").2 = .error e) ∧
      Evolves ∅ (.clear ∅)
        [.declared "all" (.ok 0), .depended 0 "lib" (.ok 1), .declared "lib" (.ok 1),
          .commanded 1 "cc -c lib.c", .cleared, .built result] g marks
  := by
  obtain ⟨result, g, marks, h⟩ := evolves_library
  obtain ⟨hdeclare, -, hfilter⟩ := undisturbed_of_evolves h
  have hdeclared : ∀ name, g.IsDeclared name ↔ name = "all" ∨ name = "lib" := by
    simp [h.reflects.isDeclared_iff, libraryDeeds, Deed.declared?, or_and_right, exists_or,
      @eq_comm _ "lib"]
  obtain ⟨e, he⟩ := (hdeclare "lib").1.2 ((hdeclared "lib").2 (.inr rfl))
  refine ⟨result, g, marks, h, ⟨e, he, (hdeclare "lib").2 e he⟩, ?_, hfilter⟩
  rw [(hdeclare "tool").1, hdeclared]
  decide

end Graph

end IncrementalBuild
