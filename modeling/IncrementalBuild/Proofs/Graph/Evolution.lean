import IncrementalBuild.Build.Run
import IncrementalBuild.Proofs.Graph.Record
import IncrementalBuild.Proofs.Graph.Root
import IncrementalBuild.Proofs.Trace

/-!
# What becomes of a graph

`Evolves` is any sequence of operations on a graph and of builds in it, of a target or of a node,
in any order, whether they succeed or fail.  Each of them is a `Deed`, which keeps what was asked
for and what was answered.
The numbers that are asked for are numbers of the graph at that time; the marks of the graph are
carried from one operation to the next.

`Adds` is what one deed does to a graph, and `Reflects` says that a graph shows what a list of
deeds has done to it: the names that were mentioned, in the order of their first mention; the
names that were declared; and the dependencies and the commands of every node, in the order in
which they were added.  A graph that has grown from nothing reflects all that was done.
-/

namespace IncrementalBuild

/-- One operation on a graph or one build in it, with its answer. -/
inductive Deed
  | interned (name : String) (id : Nat)
  | declared (name : String) (answer : Except DuplicateTarget Nat)
  | depended (target : Nat) (dependency : String) (answer : Except DuplicateDependency Nat)
  | commanded (target : Nat) (command : String)
  | cleared
  | built (result : Except (Stop BuildError) Outcome)

namespace Deed

/-- The name that is mentioned, also if the operation fails. -/
def mention? : Deed → Option String
  | interned name _ => some name
  | declared name _ => some name
  | depended _ dependency _ => some dependency
  | _ => none

/-- The number that is answered, behind the name it is the number of. -/
def issued? : Deed → Option (String × Nat)
  | interned name id => some (name, id)
  | declared name (.ok id) => some (name, id)
  | depended _ dependency (.ok id) => some (dependency, id)
  | _ => none

/-- The name that comes to be declared, and its number. -/
def declared? : Deed → Option (String × Nat)
  | declared name (.ok id) => some (name, id)
  | _ => none

/-- The dependency that a node is given. -/
def dependencyOf? (target : Nat) : Deed → Option Nat
  | depended node _ (.ok id) => if node = target then some id else none
  | _ => none

/-- The command that a node is given. -/
def commandOf? (target : Nat) : Deed → Option String
  | commanded node command => if node = target then some command else none
  | _ => none

end Deed

/-- The marks of a graph, for the graph that it has become. -/
def Marks.carry {g : Graph} (marks : Marks g) (after : Graph) : Marks after :=
  .ofArray after marks.toArray

namespace Graph

/-- A graph and its marks become others by deeds, from the first to the last. -/
inductive Evolves (start : Graph) (begun : Marks start) :
    List Deed → (g : Graph) → Marks g → Prop
  | rest : Evolves start begun [] start begun
  | intern {deeds : List Deed} {g : Graph} {marks : Marks g} (name : String)
      (h : Evolves start begun deeds g marks) :
    Evolves start begun (deeds ++ [.interned name (g.intern name).2]) (g.intern name).1
      (marks.carry _)
  | declare {deeds : List Deed} {g : Graph} {marks : Marks g} (name : String)
      (h : Evolves start begun deeds g marks) :
    Evolves start begun (deeds ++ [.declared name (g.declare name).2]) (g.declare name).1
      (marks.carry _)
  | depend {deeds : List Deed} {g : Graph} {marks : Marks g} (target : g.Id)
      (dependency : String) (h : Evolves start begun deeds g marks) :
    Evolves start begun
      (deeds ++ [.depended target dependency (g.depend target dependency).2])
      (g.depend target dependency).1 (marks.carry _)
  | addCommand {deeds : List Deed} {g : Graph} {marks : Marks g} (target : g.Id)
      (command : String) (h : Evolves start begun deeds g marks) :
    Evolves start begun (deeds ++ [.commanded target command]) (g.addCommand target command)
      (marks.carry _)
  | clear {deeds : List Deed} {g : Graph} {marks : Marks g}
      (h : Evolves start begun deeds g marks) :
    Evolves start begun (deeds ++ [.cleared]) g (Marks.clear g)
  | build {deeds : List Deed} {g : Graph} {marks : Marks g} {World : Type}
      (env : Environment World) (world : World) (target : Option String)
      (h : Evolves start begun deeds g marks) :
    Evolves start begun
      (deeds ++ [.built (buildTarget env g marks world target).result]) g
      (buildTarget env g marks world target).progress.marks
  | buildNode {deeds : List Deed} {g : Graph} {marks : Marks g} {World : Type}
      (env : Environment World) (world : World) (root : g.Id)
      (h : Evolves start begun deeds g marks) :
    Evolves start begun (deeds ++ [.built (IncrementalBuild.build env g marks world root).result]) g
      (IncrementalBuild.build env g marks world root).progress.marks

variable {g between after : Graph} {name : String} {id target : Nat} {deed : Deed}
  {deeds : List Deed}

/-! ### The entries of a node -/

/-- A list that the node with a number keeps; it is empty if there is no such node. -/
def entries {α : Type} (g : Graph) (kept : Node → Array α) (id : Nat) : List α :=
  (g.nodes[id]?.map fun node => (kept node).toList).getD []

theorem entries_node {α : Type} {kept : Node → Array α} (id : g.Id) :
  g.entries kept id = (kept (g.node id)).toList
  := by
  have hnode : g.nodes[id.val]? = some (g.node id) := Array.getElem?_eq_getElem id.isLt
  rw [entries, hnode, Option.map_some, Option.getD_some]

/-- A new node keeps nothing. -/
theorem Interned.entries_eq {α : Type} {kept : Node → Array α} (h : Interned g name after id)
    (hkept : kept (.mentioned name) = #[]) (other : Nat) :
  after.entries kept other = g.entries kept other
  := by
  cases h with
  | known => rfl
  | added _ hnodes =>
    rw [entries, entries, hnodes, Array.getElem?_push]
    split
    · next heq => simp [heq, hkept]
    · rfl

section Modify

variable {α : Type} {kept : Node → Array α} {f : Node → Node}
  (hnodes : after.nodes = between.nodes.modify target f)

include hnodes

theorem entries_modify_of_eq (hf : ∀ node, kept (f node) = kept node) (other : Nat) :
  after.entries kept other = between.entries kept other
  := by
  rw [entries, entries, hnodes, Array.getElem?_modify]
  split
  · cases between.nodes[other]? <;> simp [hf]
  · rfl

theorem entries_modify_push {a : α} (hf : ∀ node, kept (f node) = (kept node).push a)
    (htarget : target < between.nodes.size) (other : Nat) :
  after.entries kept other
    = between.entries kept other ++ (if target = other then some a else none).toList
  := by
  rw [entries, entries, hnodes, Array.getElem?_modify]
  split
  · next heq =>
    obtain rfl := heq
    simp [hf, htarget]
  · simp

/-- Where a name has been looked up and then a node has been changed, a list that neither a new node
nor the change adds to is as it was. -/
theorem Interned.entries_modify {id : Nat} (h : Interned g name between id)
    (hkept : kept (.mentioned name) = #[]) (hf : ∀ node, kept (f node) = kept node)
    (other : Nat) :
  after.entries kept other = g.entries kept other
  := by rw [entries_modify_of_eq hnodes hf, h.entries_eq hkept]

theorem Interned.names_modify {id : Nat} (h : Interned g name between id)
    (hf : ∀ node, (f node).name = node.name) {mentions : List String}
    (hnames : g.names = mentions.eraseDups) :
  after.names = (mentions ++ [name]).eraseDups
  := by rw [Graph.names_modify hnodes hf, h.names_eq_eraseDups hnames]

end Modify

/-! ### What one deed adds -/

/-- What a deed adds to a graph. -/
structure Adds (g : Graph) (deed : Deed) (after : Graph) : Prop where
  hasName : ∀ id name, g.HasName id name → after.HasName id name
  names : ∀ mentions : List String, g.names = mentions.eraseDups →
    after.names = (mentions ++ deed.mention?.toList).eraseDups
  issued : ∀ name id, deed.issued? = some (name, id) → after.HasName id name
  isDeclared_iff : ∀ name, after.IsDeclared name ↔
    g.IsDeclared name ∨ ∃ id, deed.declared? = some (name, id)
  new : ∀ name id, deed.declared? = some (name, id) → ¬ g.IsDeclared name
  first : after.first = g.first.or (deed.declared?.map Prod.snd)
  dependencies : ∀ target, after.entries Node.dependencies target
    = g.entries Node.dependencies target ++ (deed.dependencyOf? target).toList
  fresh : ∀ target id, deed.dependencyOf? target = some id →
    id ∉ g.entries Node.dependencies target
  commands : ∀ target, after.entries Node.commands target
    = g.entries Node.commands target ++ (deed.commandOf? target).toList

/-- A deed that mentions nothing and adds nothing. -/
theorem Adds.of_idle (hmention : deed.mention? = none) (hissued : deed.issued? = none)
    (hdeclared : deed.declared? = none) (hdependency : ∀ target, deed.dependencyOf? target = none)
    (hcommand : ∀ target, deed.commandOf? target = none) :
  g.Adds deed g
  where
  hasName _ _ h := h
  names mentions hnames := by simpa [hmention] using hnames
  issued := by simp [hissued]
  isDeclared_iff := by simp [hdeclared]
  new := by simp [hdeclared]
  first := by simp [hdeclared]
  dependencies := by simp [hdependency]
  fresh := by simp [hdependency]
  commands := by simp [hcommand]

/-- A deed that does not do more than mention a name. -/
theorem Interned.adds (h : Interned g name after id) (hmention : deed.mention? = some name)
    (hissued : ∀ pair, deed.issued? = some pair → pair = (name, id))
    (hdeclared : deed.declared? = none) (hdependency : ∀ target, deed.dependencyOf? target = none)
    (hcommand : ∀ target, deed.commandOf? target = none) :
  g.Adds deed after
  where
  hasName _ _ := h.hasName_mono
  names mentions hnames := by rw [h.names_eq_eraseDups hnames, hmention, Option.toList_some]
  issued other id hid := by
    cases hissued _ hid
    exact h.hasName
  isDeclared_iff other := by simp [h.isDeclared_iff, hdeclared]
  new := by simp [hdeclared]
  first := by simp [h.first, hdeclared]
  dependencies other := by rw [h.entries_eq rfl, hdependency, Option.toList_none, List.append_nil]
  fresh := by simp [hdependency]
  commands other := by rw [h.entries_eq rfl, hcommand, Option.toList_none, List.append_nil]

theorem adds_intern (g : Graph) (name : String) :
  g.Adds (.interned name (g.intern name).2) (g.intern name).1
  := (interned_of_intern rfl).adds rfl (fun _ h => (Option.some.inj h).symm) rfl (fun _ => rfl)
    (fun _ => rfl)

theorem adds_declare (g : Graph) (name : String) :
  g.Adds (.declared name (g.declare name).2) (g.declare name).1
  := by
  have hdeclaring := declaring_declare g name
  generalize g.declare name = answer at hdeclaring
  cases hdeclaring with
  | refused hdeclared =>
    obtain ⟨id, node, hnode, hname, -⟩ := hdeclared
    apply (Interned.known ⟨node, hnode, hname⟩).adds <;> simp [Deed.mention?, Deed.issued?,
      Deed.declared?, Deed.dependencyOf?, Deed.commandOf?]
  | @done between after id hdeclared hinterned hnodes hfirst =>
    have hdone : Declaring g name (after, .ok id) := .done hdeclared hinterned hnodes hfirst
    constructor
    case hasName => exact fun _ _ => hdone.hasName_mono
    case names => exact fun _ hnames => hinterned.names_modify hnodes (fun _ => rfl) hnames
    case issued =>
      rintro _ _ ⟨⟩
      exact hdone.hasName
    case isDeclared_iff => simp [hdone.isDeclared_iff, Deed.declared?, eq_comm]
    case new =>
      rintro _ _ ⟨⟩
      exact hdeclared
    case first => exact hfirst
    case dependencies =>
      intro target
      rw [hinterned.entries_modify hnodes rfl fun _ => rfl]
      simp [Deed.dependencyOf?]
    case fresh => simp [Deed.dependencyOf?]
    case commands =>
      intro target
      rw [hinterned.entries_modify hnodes rfl fun _ => rfl]
      simp [Deed.commandOf?]

theorem adds_depend (g : Graph) (target : g.Id) (dependency : String) :
  g.Adds (.depended target dependency (g.depend target dependency).2)
    (g.depend target dependency).1
  := by
  have hnode : g.nodes[target.val]? = some (g.node target) :=
    Array.getElem?_eq_getElem target.isLt
  have hdepending := depending_depend dependency hnode
  generalize g.depend target dependency = answer at hdepending
  cases hdepending with
  | refused _ hid =>
    apply (Interned.known hid).adds <;> simp [Deed.mention?, Deed.issued?,
      Deed.declared?, Deed.dependencyOf?, Deed.commandOf?]
  | @done between after node id hold hinterned hmem hnodes hfirst =>
    cases hnode.symm.trans hold
    have hdone : Depending g target dependency (after, .ok id) :=
      .done hnode hinterned hmem hnodes hfirst
    constructor
    case hasName => exact fun _ _ => hdone.hasName_mono
    case names => exact fun _ hnames => hinterned.names_modify hnodes (fun _ => rfl) hnames
    case issued =>
      rintro _ _ ⟨⟩
      exact hasName_modify hnodes (fun _ => rfl) hinterned.hasName
    case isDeclared_iff => simp [hdone.isDeclared_iff, Deed.declared?]
    case new => simp [Deed.declared?]
    case first => simp [hfirst, Deed.declared?]
    case dependencies =>
      intro other
      have htarget := (hinterned.hasName_mono (hasName_name target)).lt_size
      rw [entries_modify_push hnodes (fun _ => rfl) htarget, hinterned.entries_eq rfl]
      rfl
    case fresh =>
      intro other found hfound
      simp only [Deed.dependencyOf?, Option.ite_none_right_eq_some, Option.some.injEq] at hfound
      obtain ⟨rfl, rfl⟩ := hfound
      rwa [entries_node, Array.mem_toList_iff]
    case commands =>
      intro other
      rw [hinterned.entries_modify hnodes rfl fun _ => rfl]
      simp [Deed.commandOf?]

theorem adds_addCommand (g : Graph) (target : g.Id) (command : String) :
  g.Adds (.commanded target command) (g.addCommand target command)
  := by
  have hnodes := nodes_addCommand g target command
  constructor
  case hasName => exact fun _ _ => hasName_modify hnodes fun _ => rfl
  case names => simp [names_modify hnodes, Deed.mention?]
  case issued => simp [Deed.issued?]
  case isDeclared_iff => simp [isDeclared_addCommand, Deed.declared?]
  case new => simp [Deed.declared?]
  case first => simp [Deed.declared?]
  case dependencies => simp [entries_modify_of_eq hnodes, Deed.dependencyOf?]
  case fresh => simp [Deed.dependencyOf?]
  case commands => exact entries_modify_push hnodes (fun _ => rfl) target.isLt

/-! ### What all deeds have added -/

/-- A graph shows what deeds have done to it. -/
structure Reflects (g : Graph) (deeds : List Deed) : Prop where
  names : g.names = (deeds.filterMap Deed.mention?).eraseDups
  issued : ∀ name id, (name, id) ∈ deeds.filterMap Deed.issued? → g.HasName id name
  isDeclared_iff : ∀ name, g.IsDeclared name ↔ ∃ id, (name, id) ∈ deeds.filterMap Deed.declared?
  once : ((deeds.filterMap Deed.declared?).map Prod.fst).Nodup
  first : g.first = ((deeds.filterMap Deed.declared?).map Prod.snd).head?
  dependencies : ∀ target,
    g.entries Node.dependencies target = deeds.filterMap (Deed.dependencyOf? target)
  distinct : ∀ target, (g.entries Node.dependencies target).Nodup
  commands : ∀ target,
    g.entries Node.commands target = deeds.filterMap (Deed.commandOf? target)

theorem reflects_empty :
  (∅ : Graph).Reflects []
  where
  names := rfl
  issued := by simp
  isDeclared_iff := by simp
  once := List.nodup_nil
  first := rfl
  dependencies _ := rfl
  distinct _ := List.nodup_nil
  commands _ := rfl

/-- One more deed. -/
theorem Reflects.snoc (h : g.Reflects deeds) (hadds : g.Adds deed after) :
  after.Reflects (deeds ++ [deed])
  := by
  have hsnoc : ∀ {β : Type} (f : Deed → Option β),
      (deeds ++ [deed]).filterMap f = deeds.filterMap f ++ (f deed).toList := by
    intro β f
    cases hf : f deed <;> simp [hf]
  constructor
  case names => rw [hadds.names _ h.names, hsnoc]
  case issued =>
    intro name id hid
    rw [hsnoc, List.mem_append, Option.mem_toList] at hid
    rcases hid with hid | hid
    · exact hadds.hasName _ _ (h.issued name id hid)
    · exact hadds.issued name id hid
  case isDeclared_iff =>
    intro name
    simp only [hadds.isDeclared_iff, h.isDeclared_iff, hsnoc, List.mem_append, Option.mem_toList,
      exists_or]
  case once =>
    rw [hsnoc, List.map_append]
    cases hdeclared : deed.declared? with
    | none => simpa using h.once
    | some pair =>
      obtain ⟨name, id⟩ := pair
      have hnew := hadds.new name id hdeclared
      rw [h.isDeclared_iff] at hnew
      rw [List.nodup_append_comm]
      apply h.once.cons
      simpa using hnew
  case first =>
    rw [hadds.first, h.first, hsnoc, List.map_append, List.head?_append]
    cases deed.declared? <;> rfl
  case dependencies =>
    intro target
    rw [hadds.dependencies, h.dependencies, hsnoc]
  case distinct =>
    intro target
    rw [hadds.dependencies]
    cases hdependency : deed.dependencyOf? target with
    | none => simpa using h.distinct target
    | some id =>
      rw [List.nodup_append_comm]
      exact (h.distinct target).cons (hadds.fresh target id hdependency)
  case commands =>
    intro target
    rw [hadds.commands, h.commands, hsnoc]

/-- What holds of the graph at the start and is kept by whatever a deed adds holds of what becomes
of it. -/
theorem Evolves.induct_adds {start : Graph} {begun : Marks start} {marks : Marks g}
    {motive : List Deed → Graph → Prop} (h : Evolves start begun deeds g marks)
    (hstart : motive [] start)
    (hstep : ∀ deeds g deed after, motive deeds g → Adds g deed after →
      motive (deeds ++ [deed]) after) :
  motive deeds g
  := by
  induction h with
  | rest => exact hstart
  | intern name _ ih => exact hstep _ _ _ _ ih (adds_intern _ name)
  | declare name _ ih => exact hstep _ _ _ _ ih (adds_declare _ name)
  | depend target dependency _ ih => exact hstep _ _ _ _ ih (adds_depend _ target dependency)
  | addCommand target command _ ih => exact hstep _ _ _ _ ih (adds_addCommand _ target command)
  | clear _ ih => exact hstep _ _ _ _ ih (.of_idle rfl rfl rfl (fun _ => rfl) fun _ => rfl)
  | build env world target _ ih =>
    exact hstep _ _ _ _ ih (.of_idle rfl rfl rfl (fun _ => rfl) fun _ => rfl)
  | buildNode env world root _ ih =>
    exact hstep _ _ _ _ ih (.of_idle rfl rfl rfl (fun _ => rfl) fun _ => rfl)

theorem Evolves.reflects {marks : Marks g} (h : Evolves ∅ (.clear ∅) deeds g marks) :
  g.Reflects deeds
  := h.induct_adds (motive := fun deeds g => g.Reflects deeds) reflects_empty
    fun _ _ _ _ => Reflects.snoc

/-- A number keeps its name whatever is done. -/
theorem Evolves.hasName_mono {start : Graph} {begun : Marks start} {marks : Marks g}
    (h : Evolves start begun deeds g marks) (hname : start.HasName id name) :
  g.HasName id name
  := h.induct_adds (motive := fun _ g => g.HasName id name) hname
    fun _ _ _ _ hbefore hadds => hadds.hasName _ _ hbefore

theorem nodup_names (g : Graph) :
  g.names.Nodup
  := by
  have hname : ∀ i : Fin g.names.length, g.HasName i.val (g.names.get i) := by
    intro i
    rw [hasName_iff_getElem?_names, List.get_eq_getElem, List.getElem?_eq_getElem]
  rw [List.nodup_iff_injective_get]
  intro i j hij
  apply Fin.ext
  apply (hname i).id_eq
  rw [hij]
  apply hname

theorem find?_eq_some_iff (id : g.Id) :
  g.find? name = some id ↔ g.name id = name
  := by
  constructor
  · exact name_of_find?
  · rintro rfl
    exact (hasName_name id).find?_eq

namespace Reflects

/-- A node is declared if its name was, and then under its number. -/
theorem declared_iff (h : g.Reflects deeds) (id : g.Id) :
  (g.node id).declared = true ↔ (g.name id, id.val) ∈ deeds.filterMap Deed.declared?
  := by
  rw [← isDeclared_name, h.isDeclared_iff]
  constructor
  · rintro ⟨other, hother⟩
    have hissued : (g.name id, other) ∈ deeds.filterMap Deed.issued? := by
      obtain ⟨deed, hdeed, hdeclared⟩ := List.mem_filterMap.1 hother
      refine List.mem_filterMap.2 ⟨deed, hdeed, ?_⟩
      revert hdeclared
      fun_cases Deed.declared? deed <;> simp [Deed.issued?]
    rwa [← (h.issued _ _ hissued).id_eq (hasName_name id)]
  · exact fun hid => ⟨_, hid⟩

theorem first?_eq (h : g.Reflects deeds) :
  g.first?.map Fin.val = ((deeds.filterMap Deed.declared?).map Prod.snd).head?
  := by rw [map_val_first?, h.first]

theorem first?_eq_none_iff (h : g.Reflects deeds) :
  g.first? = none ↔ ∀ id, (g.node id).declared = false
  := by
  rw [← Option.map_eq_none_iff (f := Fin.val), h.first?_eq, List.head?_eq_none_iff,
    List.map_eq_nil_iff]
  constructor
  · intro hnil id
    rw [← Bool.not_eq_true, h.declared_iff, hnil]
    exact List.not_mem_nil
  · intro hnone
    rw [List.eq_nil_iff_forall_not_mem]
    rintro ⟨name, id⟩ hmem
    obtain ⟨root, -, hdeclared⟩ := ((h.isDeclared_iff name).2 ⟨id, hmem⟩).exists_name
    cases (hnone root).symm.trans hdeclared

/-! ### The answers -/

/-- A name that has just been mentioned has the number that is its place among the names in the
order of their first mention. -/
theorem eq_idxOf (h : g.Reflects deeds) (hadds : g.Adds deed after)
    (hmention : deed.mention? = some name) (hname : after.HasName id name) :
  id = (deeds.filterMap Deed.mention? ++ [name]).eraseDups.idxOf name
  := by
  have hnames := hadds.names _ h.names
  rw [hmention, Option.toList_some] at hnames
  rw [hasName_iff_getElem?_names] at hname
  obtain ⟨hlt, rfl⟩ := List.getElem?_eq_some_iff.1 hname
  rw [← hnames, after.nodup_names.idxOf_getElem]

/-- A name is refused if it has been declared with success. -/
theorem declare_snd (h : g.Reflects deeds) (name : String) :
  (g.declare name).2
    = if name ∈ (deeds.filterMap Deed.declared?).map Prod.fst then .error ⟨name⟩
      else .ok ((deeds.filterMap Deed.mention? ++ [name]).eraseDups.idxOf name)
  := by
  have hdeclared : g.IsDeclared name ↔ name ∈ (deeds.filterMap Deed.declared?).map Prod.fst := by
    simp [h.isDeclared_iff]
  have hadds := adds_declare g name
  have hdeclaring := declaring_declare g name
  generalize g.declare name = answer at hadds hdeclaring ⊢
  cases hdeclaring with
  | refused hrefused => rw [if_pos (hdeclared.1 hrefused)]
  | done hnew hinterned hnodes =>
    have hid := hasName_modify hnodes (fun _ => rfl) hinterned.hasName
    rw [if_neg (mt hdeclared.2 hnew), ← h.eq_idxOf hadds rfl hid]

/-- A dependency is refused if the node has been given its number with success. -/
theorem depend_snd (h : g.Reflects deeds) (target : g.Id) (dependency : String) :
  (g.depend target dependency).2
    = if (deeds.filterMap Deed.mention? ++ [dependency]).eraseDups.idxOf dependency
          ∈ deeds.filterMap (Deed.dependencyOf? target) then
        .error ⟨g.name target, dependency⟩
      else .ok ((deeds.filterMap Deed.mention? ++ [dependency]).eraseDups.idxOf dependency)
  := by
  have hnode : g.nodes[target.val]? = some (g.node target) :=
    Array.getElem?_eq_getElem target.isLt
  have hadds := adds_depend g target dependency
  have hdepending := depending_depend dependency hnode
  rw [← h.dependencies, entries_node]
  generalize g.depend target dependency = answer at hadds hdepending ⊢
  cases hdepending with
  | refused hold hid hmem =>
    cases hnode.symm.trans hold
    rw [← h.eq_idxOf hadds rfl hid, if_pos (Array.mem_toList_iff.2 hmem)]
    rfl
  | done hold hinterned hmem hnodes =>
    cases hnode.symm.trans hold
    have hid := hasName_modify hnodes (fun _ => rfl) hinterned.hasName
    rw [← h.eq_idxOf hadds rfl hid, if_neg (mt Array.mem_toList_iff.1 hmem)]

end Reflects

theorem Evolves.exists_declare {marks : Marks g} (h : Evolves ∅ (.clear ∅) deeds g marks)
    (name : String) (answer : Except DuplicateTarget Nat)
    (hanswer : (if name ∈ (deeds.filterMap Deed.declared?).map Prod.fst then .error ⟨name⟩
      else .ok ((deeds.filterMap Deed.mention? ++ [name]).eraseDups.idxOf name)) = answer) :
  ∃ (g' : Graph) (marks' : Marks g'),
    Evolves ∅ (.clear ∅) (deeds ++ [.declared name answer]) g' marks'
  := by
  rw [← hanswer, ← h.reflects.declare_snd]
  exact ⟨_, _, h.declare name⟩

theorem Evolves.exists_depend {marks : Marks g} (h : Evolves ∅ (.clear ∅) deeds g marks)
    (target : Nat) (name dependency : String) (answer : Except DuplicateDependency Nat)
    (hname : (deeds.filterMap Deed.mention?).eraseDups[target]? = some name)
    (hanswer : (if (deeds.filterMap Deed.mention? ++ [dependency]).eraseDups.idxOf dependency
          ∈ deeds.filterMap (Deed.dependencyOf? target) then
        .error ⟨name, dependency⟩
      else .ok ((deeds.filterMap Deed.mention? ++ [dependency]).eraseDups.idxOf dependency))
        = answer) :
  ∃ (g' : Graph) (marks' : Marks g'),
    Evolves ∅ (.clear ∅) (deeds ++ [.depended target dependency answer]) g' marks'
  := by
  rw [← h.reflects.names, ← hasName_iff_getElem?_names] at hname
  have htarget := (hasName_name ⟨target, hname.lt_size⟩).name_eq hname
  rw [← hanswer, ← htarget, ← h.reflects.depend_snd ⟨target, hname.lt_size⟩]
  exact ⟨_, _, h.depend ⟨target, hname.lt_size⟩ dependency⟩

/-- Whatever is done to a graph that has nothing at first, in whatever order: no two nodes have
the same name, and a name finds the node that has it; the nodes are numbered in the order in which
their names were first mentioned, and a number that was answered is, now and later on, the number
of the name it was answered for; the dependencies of a node are nodes, no two of them the same,
and they and its commands are those that were added, in this order; a node is declared if its name
was declared with success, which happens at most once for a name; and the first node is the one
that was declared first, if any node is declared. -/
theorem account_of_evolves {marks : Marks g} (h : Evolves ∅ (.clear ∅) deeds g marks) :
  g.names.Nodup ∧
    (∀ (name : String) (id : g.Id), g.find? name = some id ↔ g.name id = name) ∧
    g.names = (deeds.filterMap Deed.mention?).eraseDups ∧
    (∀ name id, (name, id) ∈ deeds.filterMap Deed.issued? → g.HasName id name) ∧
    (∀ (later : List Deed) (g' : Graph) (marks' : Marks g'), Evolves g marks later g' marks' →
      ∀ id : g.Id, g'.HasName id (g.name id)) ∧
    (∀ id : g.Id,
      (∀ dependency ∈ (g.node id).dependencies, dependency < g.size) ∧
      (g.node id).dependencies.toList.Nodup ∧
      (g.node id).dependencies.toList = deeds.filterMap (Deed.dependencyOf? id) ∧
      (g.node id).commands.toList = deeds.filterMap (Deed.commandOf? id) ∧
      ((g.node id).declared = true ↔ (g.name id, id.val) ∈ deeds.filterMap Deed.declared?)) ∧
    ((deeds.filterMap Deed.declared?).map Prod.fst).Nodup ∧
    g.first?.map Fin.val = ((deeds.filterMap Deed.declared?).map Prod.snd).head? ∧
    (g.first? = none ↔ ∀ id, (g.node id).declared = false)
  := by
  have hreflects := h.reflects
  refine ⟨g.nodup_names, fun _ => find?_eq_some_iff, hreflects.names, hreflects.issued, ?_, ?_,
    hreflects.once, hreflects.first?_eq, hreflects.first?_eq_none_iff⟩
  · intro later g' marks' hlater id
    exact hlater.hasName_mono (hasName_name id)
  · intro id
    refine ⟨g.dependency_lt id _ (Array.getElem?_eq_getElem id.isLt), ?_, ?_, ?_,
      hreflects.declared_iff id⟩
    · rw [← entries_node]
      exact hreflects.distinct id
    · rw [← entries_node]
      exact hreflects.dependencies id
    · rw [← entries_node]
      exact hreflects.commands id

/-- A program is declared and made to depend on a library, twice; the library is declared, and the
program again; the library is given a command; the marks are cleared; and the program is built. -/
def libraryDeeds (result : Except (Stop BuildError) Outcome) : List Deed :=
  [.declared "all" (.ok 0), .depended 0 "lib" (.ok 1), .depended 0 "lib" (.error ⟨"all", "lib"⟩),
    .declared "lib" (.ok 1), .declared "all" (.error ⟨"all"⟩), .commanded 1 "cc -c lib.c",
    .cleared, .built result]

theorem evolves_library :
  ∃ (result : Except (Stop BuildError) Outcome) (g : Graph) (marks : Marks g),
    Evolves ∅ (.clear ∅) (libraryDeeds result) g marks
  := by
  obtain ⟨g₁, marks₁, h₁⟩ := Evolves.rest.exists_declare "all" (.ok 0) rfl
  obtain ⟨g₂, marks₂, h₂⟩ := h₁.exists_depend 0 "all" "lib" (.ok 1) rfl rfl
  obtain ⟨g₃, marks₃, h₃⟩ := h₂.exists_depend 0 "all" "lib" (.error ⟨"all", "lib"⟩) rfl rfl
  obtain ⟨g₄, marks₄, h₄⟩ := h₃.exists_declare "lib" (.ok 1) rfl
  obtain ⟨g₅, marks₅, h₅⟩ := h₄.exists_declare "all" (.error ⟨"all"⟩) rfl
  have hlib : g₅.HasName 1 "lib" := by
    rw [hasName_iff_getElem?_names, h₅.reflects.names]
    rfl
  have h₆ := h₅.addCommand ⟨1, hlib.lt_size⟩ "cc -c lib.c"
  exact ⟨_, _, _, h₆.clear.build (.refusing "cc -c lib.c") [] (some "all")⟩

theorem account_of_evolves_library :
  ∃ (result : Except (Stop BuildError) Outcome) (g : Graph) (marks : Marks g),
    Evolves ∅ (.clear ∅) (libraryDeeds result) g marks ∧
      g.names = ["all", "lib"] ∧
      (∀ id : g.Id, g.find? "lib" = some id ↔ g.name id = "lib") ∧
      g.HasName 1 "lib" ∧
      (∀ id : g.Id, id.val = 0 → (g.node id).dependencies.toList = [1]) ∧
      (∀ id : g.Id, id.val = 1 → (g.node id).commands.toList = ["cc -c lib.c"]) ∧
      g.first?.map Fin.val = some 0
  := by
  obtain ⟨result, g, marks, h⟩ := evolves_library
  obtain ⟨-, hfind, hnames, hissued, -, hnodes, -, hfirst, -⟩ := account_of_evolves h
  refine ⟨result, g, marks, h, hnames, hfind "lib", hissued "lib" 1 ?_, ?_, ?_, hfirst⟩
  · simp [libraryDeeds, Deed.issued?]
  · intro id hid
    obtain ⟨-, -, hdependencies, -, -⟩ := hnodes id
    rw [hdependencies, hid]
    rfl
  · intro id hid
    obtain ⟨-, -, -, hcommands, -⟩ := hnodes id
    rw [hcommands, hid]
    rfl

end Graph

end IncrementalBuild
