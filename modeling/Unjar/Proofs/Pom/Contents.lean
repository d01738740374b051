import Unjar.Proofs.OrderedMap
import Unjar.Proofs.Pom.Parts

/-!
What a rendered descriptor tells.

A descriptor that was rendered and read again has the parts that were written, and each of them is
found under its name: the identity, the properties, the repositories, the dependencies, and in a
dependency each of its values.  A text comes back without the blanks at its ends and with its line
ends unified, and an empty one not at all.

Main definition: `Unjar.PomElement.IsValue` — texts that come back as they are.

Main results:

* `Unjar.PomElement.IsRead.parts_branchIfAny` — the parts of a part;
* `Unjar.PomElement.properties_of_isRead`, `Unjar.PomElement.repositories_of_isRead`,
  `Unjar.PomElement.dependencies_of_isRead` — **what is found of a descriptor**;
* `Unjar.PomElement.value?_ofCoordinate` and its like — what is found of a dependency.
-/

set_option autoImplicit false

namespace Unjar

namespace PomElement

open PomNode Xml

/-! ### Texts -/

/-- A text that is read as it is: it is not empty, has no blanks at its ends, can stand in a document
and has no carriage return. -/
structure IsValue (t : Text) : Prop where
  filled : t ≠ []
  stripped : Text.strip t = t
  content : IsContent t
  noReturn : '\r' ∉ t

theorem isValue_iff {t : Text} :
    IsValue t ↔ t ≠ [] ∧ Text.strip t = t ∧ IsContent t ∧ '\r' ∉ t :=
  ⟨fun h => ⟨h.filled, h.stripped, h.content, h.noReturn⟩,
    fun ⟨filled, stripped, content, noReturn⟩ => ⟨filled, stripped, content, noReturn⟩⟩

instance (t : Text) : Decidable (IsValue t) := decidable_of_iff _ isValue_iff.symm

theorem IsValue.asRead {t : Text} (h : IsValue t) : asRead t = some t := by
  rw [PomElement.asRead, if_neg (by simpa using h.filled), Text.unifyLineEnds_of_not_mem h.noReturn,
    h.stripped]

@[simp] theorem asRead_nil : asRead [] = none := rfl

/-- A text that is not written is not missed: it would not be read. -/
@[simp] theorem bind_asRead_filter (t : Option Text) :
    (t.filter fun t => !t.isEmpty).bind asRead = t.bind asRead := by
  rcases t with _ | _ | ⟨c, t⟩
  · rfl
  · rfl
  · rfl

/-! ### Parts of parts -/

section

variable {e : PomElement} {node : XmlNode} {nodes : List XmlNode} {m n : String}

theorem part?_eq_head? (e : PomElement) (n : String) : e.part? n = (e.parts n).head? := by
  rw [PomElement.part?, PomElement.parts, List.head?_map, XmlNode.child?, XmlNode.childrenNamed,
    List.head?_filter]

theorem partsAlong_nil (e : PomElement) : e.partsAlong [] = [e] := rfl

/-- Parts along a way are found step by step. -/
theorem partsAlong_cons (e : PomElement) (n : String) (more : List String) :
    e.partsAlong (n :: more) = (e.parts n).flatMap fun part => part.partsAlong more := by
  rw [PomElement.partsAlong, PomElement.parts, List.flatMap_map, List.map_cons, XmlNode.along,
    List.map_flatMap]
  rfl

theorem partsAlong_append (e : PomElement) (names more : List String) :
    e.partsAlong (names ++ more) =
      (e.partsAlong names).flatMap fun part => part.partsAlong more := by
  induction names generalizing e with
  | nil => simp [partsAlong_nil]
  | cons n names ih =>
      rw [List.cons_append, partsAlong_cons, partsAlong_cons, List.flatMap_assoc]
      exact List.flatMap_congr fun part _ => ih part

/-- The children of an element, with or without a namespace. -/
theorem IsRead.children (h : IsRead node e) :
    List.Forall₂ (ReadAs (some pomUri)) (node.children.filter XmlNode.isElement)
      e.node.children := by
  obtain ⟨found, uri⟩ := e
  obtain ⟨-, hread⟩ := h
  cases hread with
  | element _ hchildren => exact hchildren

/-- **A part with parts**, which is written if it has any. -/
theorem IsRead.parts_branchIfAny (h : IsRead node e) (hplain : node.HasPlainParts)
    (hnode : node.childrenNamed (PomNode.name n) = branchIfAny n nodes) :
    (nodes = [] ∧ e.parts n = []) ∨
      ∃ part, e.parts n = [part] ∧ IsRead (branch n nodes) part := by
  have hparts := h.parts hplain n
  rw [hnode] at hparts
  cases nodes with
  | nil =>
      cases hempty : e.parts n with
      | nil => exact .inl ⟨rfl, rfl⟩
      | cons part more =>
          rw [hempty] at hparts
          cases hparts
  | cons first others =>
      generalize e.parts n = parts at hparts ⊢
      cases hparts with
      | cons hfirst hothers =>
          cases hothers
          exact .inr ⟨_, rfl, hfirst⟩

/-- **The parts of a part** are found on the way of the two names. -/
theorem IsRead.partsAlong_branchIfAny (h : IsRead node e) (hplain : node.HasPlainParts)
    (hnode : node.childrenNamed (PomNode.name m) = branchIfAny m nodes) (harePlain : ArePlain nodes)
    (n : String) : List.Forall₂ IsRead (named n nodes) (e.partsAlong [m, n]) := by
  rw [partsAlong_cons]
  rcases h.parts_branchIfAny hplain hnode with ⟨rfl, hparts⟩ | ⟨part, hparts, hpart⟩
  · rw [hparts]
    exact .nil
  · rw [hparts, List.flatMap_singleton, partsAlong_cons]
    have hfound := hpart.parts (hasPlainParts_branch.mpr harePlain) n
    rw [childrenNamed_branch] at hfound
    simpa [partsAlong_nil] using hfound

/-- Where there is at most one part of a name, its parts are those on the way of the two names. -/
theorem IsRead.parts_of_part? (h : IsRead node e) (hplain : node.HasPlainParts)
    (hnode : node.childrenNamed (PomNode.name m) = branchIfAny m nodes) (n : String) :
    ((e.part? m).map fun part => part.parts n).getD [] = e.partsAlong [m, n] := by
  rw [partsAlong_cons, part?_eq_head?]
  rcases h.parts_branchIfAny hplain hnode with ⟨rfl, hparts⟩ | ⟨part, hparts, -⟩
  · rw [hparts]
    rfl
  · rw [hparts]
    simp [partsAlong_cons, partsAlong_nil]

/-- Elements found one by one. -/
theorem filterMap_of_forall₂ {α β γ : Type} {R : α → β → Prop} {f : β → Option γ}
    {g : α → Option γ} {l : List α} {l' : List β} (h : List.Forall₂ R l l')
    (hf : ∀ a ∈ l, ∀ b, R a b → f b = g a) : l'.filterMap f = l.filterMap g := by
  induction h with
  | nil => rfl
  | @cons a b l l' hab _ ih =>
      rw [List.forall_mem_cons] at hf
      rw [List.filterMap_cons, List.filterMap_cons, hf.1 b hab, ih hf.2]

end

/-! ### A dependency -/

/-- The scope that is written of a dependency; the usual one is not. -/
def writtenScope (c : Coordinate) : Option Text :=
  if c.scope = some Coordinate.compileScope then none else c.scope

/-- The mark that is written of an optional dependency. -/
def writtenMark (c : Coordinate) : Option Text :=
  if c.isOptional then some "true".toList else none

/-- **An element tells of a dependency** what was written of it. -/
structure Tells (e : PomElement) (c : Coordinate) : Prop where
  groupId : e.value? "groupId" = asRead c.groupId
  artifactId : e.value? "artifactId" = asRead c.artifactId
  version : e.value? "version" = c.version.bind asRead
  type : e.value? "type" = c.type.bind asRead
  classifier : e.value? "classifier" = c.classifier.bind asRead
  scope : e.value? "scope" = (writtenScope c).bind asRead
  mark : e.value? "optional" = (writtenMark c).bind asRead
  exclusions : List.Forall₂
    (fun (x : Text × Text) part =>
      part.value? "groupId" = asRead x.1 ∧ part.value? "artifactId" = asRead x.2)
    c.exclusions (e.partsAlong ["exclusions", "exclusion"])

section

variable {e : PomElement} {c : Coordinate}

/-- A dependency is a row of texts, with the exclusions among them. -/
theorem ofCoordinate_eq (c : Coordinate) : ofCoordinate c = branch "dependency"
    ([leaf "groupId" c.groupId, leaf "artifactId" c.artifactId] ++
      leafIfFilled "version" c.version ++ leafIfFilled "type" c.type ++
      leafIfFilled "classifier" c.classifier ++ leafIfFilled "scope" (writtenScope c) ++
      branchIfAny "exclusions" (c.exclusions.map ofExclusion) ++
      leafIfFilled "optional" (writtenMark c)) := by
  have hscope : (if c.scope == some Coordinate.compileScope then []
      else leafIfFilled "scope" c.scope) = leafIfFilled "scope" (writtenScope c) := by
    by_cases h : c.scope = some Coordinate.compileScope
    · simp [writtenScope, leafIfFilled, h]
    · simp [writtenScope, h]
  have hmark : (if c.isOptional then [leaf "optional" "true".toList] else []) =
      leafIfFilled "optional" (writtenMark c) := by
    cases h : c.isOptional
    · simp [writtenMark, leafIfFilled, h]
    · simp [writtenMark, leafIfFilled, h]
  rw [ofCoordinate, hscope, hmark]

theorem hasPlainParts_ofCoordinate (c : Coordinate) : (ofCoordinate c).HasPlainParts := by
  rw [ofCoordinate_eq, hasPlainParts_branch]
  simp

/-- What is told of an exclusion. -/
theorem value?_ofExclusion {x : Text × Text} (h : IsRead (ofExclusion x) e) :
    e.value? "groupId" = asRead x.1 ∧ e.value? "artifactId" = asRead x.2 := by
  have hplain : (ofExclusion x).HasPlainParts := by
    rw [ofExclusion, hasPlainParts_branch]
    simp
  constructor
  · exact h.value? hplain (t := some x.1) (by simp [ofExclusion, child?_branch])
  · exact h.value? hplain (t := some x.2) (by simp [ofExclusion, child?_branch])

/-- **What is told of a dependency** is what was written of it. -/
theorem tells_of_isRead (h : IsRead (ofCoordinate c) e) : e.Tells c := by
  have hplain := hasPlainParts_ofCoordinate c
  -- values that may be missing are written if they are filled, and read if they are written
  have hvalue : ∀ {n : String} {t : Option Text}, (ofCoordinate c).child? (PomNode.name n) =
      (t.filter fun t => !t.isEmpty).map (leaf n) → e.value? n = t.bind asRead := by
    intro n t hchild
    rw [h.value? hplain hchild, bind_asRead_filter]
  rw [ofCoordinate_eq] at hvalue
  constructor
  case groupId =>
    refine h.value? hplain (t := some c.groupId) ?_
    simp [ofCoordinate_eq, child?_branch]
  case artifactId =>
    refine h.value? hplain (t := some c.artifactId) ?_
    simp [ofCoordinate_eq, child?_branch]
  case version => exact hvalue (by simp [child?_branch])
  case type => exact hvalue (by simp [child?_branch])
  case classifier => exact hvalue (by simp [child?_branch])
  case scope => exact hvalue (by simp [child?_branch])
  case mark => exact hvalue (by simp [child?_branch])
  case exclusions =>
    have hnode : (ofCoordinate c).childrenNamed (PomNode.name "exclusions") =
        branchIfAny "exclusions" (c.exclusions.map ofExclusion) := by
      simp [ofCoordinate_eq, childrenNamed_branch]
    have harePlain : ArePlain (c.exclusions.map ofExclusion) := arePlain_map_branch _ _
    have hparts := h.partsAlong_branchIfAny hplain hnode harePlain "exclusion"
    unfold ofExclusion at hparts
    rw [named_map_branch, List.forall₂_map_left_iff] at hparts
    exact hparts.imp fun x part hpart => value?_ofExclusion hpart

end

/-! ### A repository -/

/-- What is told of a repository. -/
theorem repository_of_isRead {e : PomElement} {r : Repository} (h : IsRead (ofRepository r) e) :
    e.value? "id" = asRead r.id ∧ e.value? "url" = asRead r.url ∧
      e.value? "name" = r.name.bind asRead := by
  have hplain : (ofRepository r).HasPlainParts := by
    rw [ofRepository, hasPlainParts_branch]
    simp
  refine ⟨?_, ?_, ?_⟩
  · exact h.value? hplain (t := some r.id) (by simp [ofRepository, child?_branch])
  · exact h.value? hplain (t := some r.url) (by simp [ofRepository, child?_branch])
  · rw [h.value? hplain (t := r.name.filter fun t => !t.isEmpty)
      (by simp [ofRepository, child?_branch]), bind_asRead_filter]

/-! ### A property -/

/-- What is told of a property: its name, and its value unless that is empty. -/
theorem property?_of_readAs {key value : Text} {found : XmlNode}
    (h : ReadAs (some pomUri) (.leaf (.plain key) value) found) :
    property? found = (asRead value).map (key, ·) := by
  generalize hleaf : XmlNode.leaf (.plain key) value = node at h
  cases h with
  | element htext _ =>
      cases hleaf
      rw [property?, asRead]
      simp only [XmlNode.name?, XmlNode.text, htext, Text.isEmpty_unifyLineEnds]
      split
      · rfl
      · rfl

end PomElement

/-! ### The descriptor -/

namespace ProjectDescriptor

open PomNode PomElement

section

variable {d : ProjectDescriptor} {managed plugins : List XmlNode} {e : PomElement}

theorem hasPlainParts_partsOf (d : ProjectDescriptor) (managed plugins : List XmlNode) :
    (bareRoot (d.partsOf managed plugins)).HasPlainParts := by
  change ArePlain (d.partsOf managed plugins)
  simp [partsOf, identityNodes]

theorem childrenNamed_bareRoot (parts : List XmlNode) (n : String) :
    (bareRoot parts).childrenNamed (PomNode.name n) = named n parts := rfl

theorem child?_bareRoot (parts : List XmlNode) (n : String) :
    (bareRoot parts).child? (PomNode.name n) = first? n parts := rfl

/-- What is told of the identity. -/
theorem identity_of_isRead (h : IsRead (bareRoot (d.partsOf managed plugins)) e) :
    e.value? "groupId" = asRead d.identity.groupId ∧
      e.value? "artifactId" = asRead d.identity.artifactId ∧
      e.value? "version" = asRead d.identity.version ∧ e.part? "parent" = none := by
  have hplain := hasPlainParts_partsOf d managed plugins
  refine ⟨?_, ?_, ?_, ?_⟩
  · refine h.value? hplain (t := some d.identity.groupId) ?_
    simp [child?_bareRoot, partsOf, identityNodes]
  · refine h.value? hplain (t := some d.identity.artifactId) ?_
    simp [child?_bareRoot, partsOf, identityNodes]
  · refine h.value? hplain (t := some d.identity.version) ?_
    simp [child?_bareRoot, partsOf, identityNodes]
  · have hnone : (bareRoot (d.partsOf managed plugins)).child? (PomNode.name "parent") = none := by
      simp [child?_bareRoot, partsOf, identityNodes]
    have hpart := h.part? hplain "parent"
    rw [hnone] at hpart
    generalize e.part? "parent" = part at hpart ⊢
    cases hpart
    rfl

/-- **What is told of the properties**: each under its name, unless its value is empty. -/
theorem properties_of_isRead (h : IsRead (bareRoot (d.partsOf managed plugins)) e) :
    e.properties = .ofList (d.properties.filterMap fun entry =>
      (asRead entry.2).map (entry.1, ·)) := by
  have hplain := hasPlainParts_partsOf d managed plugins
  have hnode : (bareRoot (d.partsOf managed plugins)).childrenNamed (PomNode.name "properties") =
      branchIfAny "properties" (d.properties.map fun entry =>
        XmlNode.leaf (.plain entry.1) entry.2) := by
    simp [childrenNamed_bareRoot, partsOf, identityNodes]
  rw [PomElement.properties, part?_eq_head?]
  rcases h.parts_branchIfAny hplain hnode with ⟨hnil, hparts⟩ | ⟨part, hparts, hpart⟩
  · rw [hparts, List.map_eq_nil_iff.mp hnil]
    rfl
  · rw [hparts]
    have hchildren := hpart.children
    have hall : (branch "properties" (d.properties.map fun entry =>
        XmlNode.leaf (.plain entry.1) entry.2)).children.filter XmlNode.isElement =
        d.properties.map fun entry => XmlNode.leaf (.plain entry.1) entry.2 := by
      refine List.filter_eq_self.mpr (List.forall_mem_map.mpr fun entry _ => rfl)
    rw [hall, List.forall₂_map_left_iff] at hchildren
    dsimp only [List.head?_cons]
    congr 1
    exact filterMap_of_forall₂ hchildren fun entry _ found hread => property?_of_readAs hread

theorem named_repositories :
    named "repositories" (d.partsOf managed plugins) =
      branchIfAny "repositories" (d.repositories.map ofRepository) := by
  simp [partsOf, identityNodes]

/-- **The repositories** are found in their order. -/
theorem repositories_of_isRead (h : IsRead (bareRoot (d.partsOf managed plugins)) e) :
    List.Forall₂ (fun r part => IsRead (ofRepository r) part) d.repositories
        (e.partsAlong ["repositories", "repository"]) ∧
      e.repositories = (e.partsAlong ["repositories", "repository"]).filterMap repository? := by
  have hplain := hasPlainParts_partsOf d managed plugins
  have hparts := h.partsAlong_branchIfAny hplain named_repositories (arePlain_map_branch _ _)
    "repository"
  have hnamed : named "repository" (d.repositories.map ofRepository) =
      d.repositories.map ofRepository := named_map_branch ..
  rw [hnamed, List.forall₂_map_left_iff] at hparts
  refine ⟨hparts, ?_⟩
  rw [← h.parts_of_part? hplain named_repositories "repository", PomElement.repositories]
  cases e.part? "repositories" with
  | none => rfl
  | some list => rfl

theorem named_dependencies :
    named "dependencies" (d.partsOf managed plugins) =
      branchIfAny "dependencies" (d.dependencies.toList.flatMap ofDependency) := by
  simp [partsOf, identityNodes]

/-- The remarks between the dependencies are no elements. -/
theorem named_ofDependency (cs : List Coordinate) :
    named "dependency" (cs.flatMap ofDependency) = cs.map ofCoordinate := by
  induction cs with
  | nil => rfl
  | cons c cs ih =>
      rw [List.flatMap_cons, named_append, ih, ofDependency, named_append, List.map_cons]
      have hremark : named "dependency" (if c.needsReview then [reviewRemark c] else []) = [] := by
        split
        · rfl
        · rfl
      have hown : named "dependency" [ofCoordinate c] = [ofCoordinate c] := by
        simp [named, ofCoordinate]
      rw [hremark, hown]
      rfl

theorem arePlain_ofDependency (cs : List Coordinate) : ArePlain (cs.flatMap ofDependency) := by
  intro node hnode name hname
  obtain ⟨c, -, hnode⟩ := List.mem_flatMap.mp hnode
  rcases List.mem_append.mp hnode with hnode | hnode
  · split at hnode
    · rw [List.mem_singleton.mp hnode] at hname
      cases hname
    · cases hnode
  · rw [List.mem_singleton.mp hnode] at hname
    cases hname
    rfl

/-- **The dependencies** are found in their order. -/
theorem dependencies_of_isRead (h : IsRead (bareRoot (d.partsOf managed plugins)) e) :
    List.Forall₂ (fun c part => IsRead (ofCoordinate c) part) d.dependencies.toList
        (e.partsAlong ["dependencies", "dependency"]) ∧
      ∀ known, e.dependencies known =
        (e.partsAlong ["dependencies", "dependency"]).filterMap (dependency? known) := by
  have hplain := hasPlainParts_partsOf d managed plugins
  have hparts := h.partsAlong_branchIfAny hplain named_dependencies
    (arePlain_ofDependency _) "dependency"
  rw [named_ofDependency, List.forall₂_map_left_iff] at hparts
  refine ⟨hparts, fun known => ?_⟩
  rw [← h.parts_of_part? hplain named_dependencies "dependency", PomElement.dependencies]
  cases e.part? "dependencies" with
  | none => rfl
  | some list => rfl

/-- A descriptor without managed plugins tells of none. -/
theorem managedPlugins_of_isRead (h : IsRead (bareRoot (d.partsOf [] plugins)) e) :
    e.managedPlugins = [] := by
  have hplain := hasPlainParts_partsOf d [] plugins
  have hnode : (bareRoot (d.partsOf [] plugins)).childrenNamed (PomNode.name "build") =
      branchIfAny "build" (branchIfAny "plugins" plugins) := by
    simp [childrenNamed_bareRoot, partsOf, identityNodes]
  have hnone : e.partsAlong ["build", "pluginManagement"] = [] := by
    have hparts := h.partsAlong_branchIfAny hplain hnode (by simp) "pluginManagement"
    simpa using hparts
  have halong : e.partsAlong (["build", "pluginManagement"] ++ ["plugins", "plugin"]) = [] := by
    rw [partsAlong_append, hnone]
    rfl
  rw [PomElement.managedPlugins]
  simp only [List.cons_append, List.nil_append] at halong
  rw [halong]
  rfl

end

end ProjectDescriptor

end Unjar
