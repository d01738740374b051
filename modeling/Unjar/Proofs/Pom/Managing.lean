import Unjar.Proofs.Pom.Assembling
import Unjar.Proofs.Pom.Namespace
import Unjar.Proofs.Xml.Indenting

/-!
Managed plugins in a rebuilt project.

A plugin that a packaged descriptor manages is kept as the text of its element without namespaces,
read back when the project is rendered, laid out among the parts of the project and, when that is
read again, kept once more.  Its names come back, and so does its element up to blanks next to
elements, if its names and its version are in the namespace of the descriptor, its attributes are in
none and no text holds a carriage return.  The version comes back as well, but for one that has an
element in it and no text: it is missing at first and, since blanks were put in front of the
element, empty then.

Main definitions:

* `Unjar.PomElement.stripped` — the element that is kept;
* `Unjar.PomElement.laidOutValue?` — values of an element that was laid out;
* `Unjar.PomElement.IsKeepable`, `Unjar.PomElement.KeepsVersion` — plugins that can be kept;
* `Unjar.Plugin.SurvivesAs` — **a plugin comes back**;
* `Unjar.PomElement.managedPath` — where managed plugins stand.

Main results:

* `Unjar.PomElement.HasOwnParts.part?_stripped`, `Unjar.PomElement.value?_indentedAt` — the parts of
  a plugin that is kept, and the values of one that was laid out;
* `Unjar.PomElement.isNamedAs_of_laidOut` — one plugin;
* `Unjar.ProjectDescriptor.managedPlugins_of_textOf` — what a rendered descriptor tells of managed
  plugins;
* `Unjar.ProjectDescriptor.managedPlugins_of_rendered` — **managed plugins survive a rebuild**;
* `Unjar.ProjectDescriptor.version_of_rendered_differs` — a version that does not.
-/

set_option autoImplicit false

namespace Unjar

open Xml

namespace PomElement

/-! ### Values of elements that were changed -/

/-- The parts that tell what a plugin is. -/
def pluginParts : List String := ["groupId", "artifactId", "version"]

/-- An element in whose namespace those of its parts are that tell what a plugin is. -/
def HasOwnParts (e : PomElement) : Prop :=
  ∀ child ∈ e.node.children, ∀ name, child.name? = some name →
    name.localName ∈ pluginParts.map String.toList → name.uri = e.uri

/-- An element without namespaces. -/
def stripped (e : PomElement) : PomElement := ⟨e.node.withoutNamespaces, none⟩

section

variable {e : PomElement} {node : XmlNode} {uri : Option Text} {level : Nat} {t : Text}

/-- **Parts are found** once there are no namespaces. -/
theorem HasOwnParts.part?_stripped (h : e.HasOwnParts) {n : String} (hn : n ∈ pluginParts) :
    e.stripped.part? n = (e.part? n).map stripped := by
  have hfound : e.stripped.node.child? (.plain n.toList) =
      (e.node.child? ⟨e.uri, n.toList⟩).map XmlNode.withoutNamespaces := by
    rw [stripped, XmlNode.child?, XmlNode.child?, XmlNode.children_withoutNamespaces,
      List.find?_map]
    congr 1
    rw [← List.head?_filter, ← List.head?_filter]
    refine congrArg List.head? (List.filter_congr fun child hchild => ?_)
    rw [Function.comp_apply, XmlNode.name?_withoutNamespaces]
    cases hname : child.name? with
    | none => rfl
    | some name =>
        obtain ⟨given, localName⟩ := name
        by_cases heq : localName = n.toList
        · subst heq
          have hgiven : given = e.uri := h child hchild _ hname (List.mem_map_of_mem hn)
          simp [XmlName.plain, hgiven]
        · simp [XmlName.plain, heq]
  change (e.stripped.node.child? (.plain n.toList)).map _ = _
  rw [hfound, part?, Option.map_map, Option.map_map]
  rfl

/-! ### Values of elements that were laid out -/

/-- The text of an element once it was laid out: where there are elements in it the text is not
missing. -/
def laidOutText? (e : PomElement) : Option Text :=
  if e.node.children = [] then e.text? else some (e.text?.getD [])

/-- The text of the first part of a name once it was laid out. -/
def laidOutValue? (e : PomElement) (n : String) : Option Text :=
  (e.part? n).bind laidOutText?

/-- The part of a name is found laid out. -/
theorem part?_indentedAt (node : XmlNode) (level : Nat) (uri : Option Text) (n : String) :
    Option.Rel (fun part part' : PomElement => ∃ tail,
        part'.node = (part.node.indentedAt (level + 1)).withTail tail)
      (part? ⟨node, uri⟩ n) (part? ⟨node.indentedAt level, uri⟩ n) := by
  have hpicked := forall₂_filter (p := fun child : XmlNode => child.name? == some ⟨uri, n.toList⟩)
    (q := fun child : XmlNode => child.name? == some ⟨uri, n.toList⟩)
    (node.forall₂_children_indentedAt level) ?_
  · have hhead : ∀ other : XmlNode, part? ⟨other, uri⟩ n = ((other.children.filter fun child =>
        child.name? == some ⟨uri, n.toList⟩).head?).map fun child => ⟨child, uri⟩ := fun other => by
      rw [List.head?_filter]
      rfl
    rw [hhead, hhead]
    generalize node.children.filter _ = found, (node.indentedAt level).children.filter _ = found'
      at hpicked
    cases hpicked with
    | nil => exact .none
    | cons hfirst _ => exact .some hfirst
  · rintro child - _ ⟨tail, rfl⟩
    simp

theorem text?_indentedAt {part part' : PomElement}
    (h : part'.node = (part.node.indentedAt level).withTail t) :
    part'.text? = part.laidOutText? := by
  have htext : part'.node.text = (part.node.indentedAt level).text := by
    rw [h]
    cases part.node.indentedAt level <;> rfl
  rw [text?, htext, XmlNode.text_indentedAt, laidOutText?, text?]
  split
  · rfl
  · rw [XmlNode.fillBlank]
    split
    · next hblank =>
      -- a blank text is replaced, and what replaces it is blank too
      have hline : (XmlNode.newLine (level + 1)).isEmpty = false := rfl
      rw [hline, if_neg Bool.false_ne_true, Text.strip_of_isAllBlank (XmlNode.isAllBlank_newLine _),
        Text.strip_of_isAllBlank hblank]
      split <;> rfl
    · next hblank =>
      have hempty : part.node.text.isEmpty = false := by
        cases htext : part.node.text with
        | nil => exact absurd (htext ▸ rfl) hblank
        | cons => rfl
      rw [hempty]
      rfl

/-- **The value of a part** that was laid out. -/
theorem value?_indentedAt (node : XmlNode) (level : Nat) (uri : Option Text) (n : String) :
    value? ⟨node.indentedAt level, uri⟩ n = laidOutValue? ⟨node, uri⟩ n := by
  have hpart := part?_indentedAt node level uri n
  rw [value?, laidOutValue?]
  generalize part? ⟨node, uri⟩ n = part, part? ⟨node.indentedAt level, uri⟩ n = part' at hpart
  cases hpart with
  | none => rfl
  | some hrel =>
      obtain ⟨tail, hnode⟩ := hrel
      exact text?_indentedAt hnode

theorem HasOwnParts.laidOutValue?_stripped (h : e.HasOwnParts) {n : String} (hn : n ∈ pluginParts) :
    e.stripped.laidOutValue? n = e.laidOutValue? n := by
  rw [laidOutValue?, laidOutValue?, h.part?_stripped hn, Option.bind_map]
  refine congrArg _ (funext fun part => ?_)
  simp [stripped, laidOutText?, text?]

/-- An empty text tells as little as none. -/
theorem filter_laidOutValue? (e : PomElement) (n : String) :
    ((e.laidOutValue? n).filter fun t => !t.isEmpty) = e.filled? n := by
  rw [laidOutValue?, filled?, value?]
  cases e.part? n with
  | none => rfl
  | some part =>
      rw [Option.bind_some, Option.bind_some, laidOutText?]
      split
      · rfl
      · cases part.text? <;> rfl

end

end PomElement

/-! ### One plugin -/

/-- A plugin comes back with its names, and with an element that resembles its own. -/
structure Plugin.IsNamedAs (p p' : Plugin) : Prop where
  groupId : p'.groupId = p.groupId
  artifactId : p'.artifactId = p.artifactId
  raw : ∃ t t' node node', p.raw = some t ∧ p'.raw = some t' ∧ readText? t = some node ∧
    readText? t' = some node' ∧ node.Resembles node'

namespace PomElement

/-- **A plugin that can be kept**: its names and its version are in the namespace of the descriptor,
its attributes are in none and no text holds a carriage return. -/
structure IsKeepable (e : PomElement) : Prop where
  parts : e.HasOwnParts
  attributes : ∀ name ∈ e.node.attributeNames, name.uri = none
  texts : ∀ t ∈ e.node.textsWithin, '\r' ∉ t

/-- **A plugin with a version that is the same once it was laid out**: if that has no text, then no
element either. -/
def KeepsVersion (e : PomElement) : Prop :=
  ∀ part, e.part? "version" = some part → part.node.text = [] → part.node.children = []

theorem KeepsVersion.laidOutValue? {e : PomElement} (h : e.KeepsVersion) :
    e.laidOutValue? "version" = e.value? "version" := by
  rw [PomElement.laidOutValue?, value?]
  cases hpart : e.part? "version" with
  | none => rfl
  | some part =>
      rw [Option.bind_some, Option.bind_some, laidOutText?, text?]
      split
      · rfl
      · next hchildren =>
        have htext : part.node.text ≠ [] := fun hempty => hchildren (h part hpart hempty)
        rw [List.isEmpty_eq_false_iff.mpr htext]
        rfl

section

variable {e : PomElement} {p : Plugin} {node found : XmlNode} {level : Nat}

theorem plugin?_eq_some_iff : e.plugin? = some p ↔
    ∃ artifactId, e.filled? "artifactId" = some artifactId ∧
      p = ⟨(e.filled? "groupId").getD Plugin.defaultGroup, artifactId, e.value? "version", [],
        some e.node.withoutNamespaces.toText⟩ := by
  rw [plugin?, Option.bind_eq_bind, Option.bind_eq_some_iff]
  simp only [Option.pure_def, Option.some.injEq, eq_comm]

theorem IsKeepable.unified_stripped (he : e.IsKeepable) :
    (e.stripped.node.withTail []).unified = e.stripped.node.withTail [] := by
  have htexts : ∀ t ∈ e.stripped.node.textsWithin, '\r' ∉ t := by
    rw [stripped, XmlNode.textsWithin_withoutNamespaces]
    exact he.texts
  rw [XmlNode.unified_withTail, XmlNode.unified_of_textsWithin htexts]
  rfl

section

variable (hnode : e.node.WellFormed) (he : e.IsKeepable)

include hnode he

theorem presentable_stripped : e.stripped.node.Presentable := by
  refine hnode.withoutNamespaces.presentable ?_
  rw [XmlNode.NamesAttributes, hnode.attributeNames_withoutNamespaces]
  exact hnode.namesAttributes he.attributes

/-- The element of a plugin that is kept is read back from its text. -/
theorem readText?_stripped :
    readText? e.stripped.node.toText = some (e.stripped.node.withTail []) := by
  have hwell : e.stripped.node.WellFormed := hnode.withoutNamespaces
  rw [readText?_of_presentable (presentable_stripped hnode he) hwell.name?_ne_none,
    readBack_none hwell.unified, ← he.unified_stripped, XmlNode.unified_withTail]
  rfl

/-- **The element is laid out** among the parts of a project, and read as it is there. -/
theorem eq_of_laidOut (hfound : LaidOut level (e.stripped.node.withTail []) found) :
    ∃ tail, found = (e.stripped.node.indentedAt level).withTail tail := by
  have hwell : (e.stripped.node.withTail []).WellFormed :=
    hnode.withoutNamespaces.withTail isContent_nil
  obtain ⟨tail, rfl⟩ := hfound.eq_indentedAt hwell
  refine ⟨tail, ?_⟩
  rw [XmlNode.unified_indentedAt, he.unified_stripped, XmlNode.indentedAt_withTail,
    XmlNode.withTail_withTail]

/-- And it is kept and read back once more. -/
theorem readText?_indentedAt (level : Nat) (tail : Text) :
    readText? ((e.stripped.node.indentedAt level).withTail tail).withoutNamespaces.toText =
      some ((e.stripped.node.withTail []).indentedAt level) := by
  have htext : ((e.stripped.node.indentedAt level).withTail tail).withoutNamespaces.toText =
      (e.stripped.node.indentedAt level).toText := by
    rw [XmlNode.withoutNamespaces_withTail, XmlNode.withoutNamespaces_indentedAt, stripped,
      XmlNode.withoutNamespaces_withoutNamespaces, XmlNode.toText_withTail]
  have hwell : (e.stripped.node.indentedAt level).WellFormed :=
    hnode.withoutNamespaces.indentedAt level
  rw [htext, readText?_of_presentable ((presentable_stripped hnode he).indentedAt level)
    hwell.name?_ne_none, readBack_none hwell.unified, XmlNode.unified_indentedAt,
    ← XmlNode.indentedAt_withTail, ← he.unified_stripped, XmlNode.unified_withTail]
  rfl

/-- **One plugin comes back** from being kept, laid out, read and kept again. -/
theorem isNamedAs_of_laidOut (hp : e.plugin? = some p) (hread : PomNode.elementOf p = .ok node)
    (hfound : LaidOut level node found) :
    ∃ p', plugin? ⟨found, none⟩ = some p' ∧ p.IsNamedAs p' ∧
      p'.version = e.laidOutValue? "version" := by
  obtain ⟨artifactId, hartifact, rfl⟩ := plugin?_eq_some_iff.mp hp
  obtain rfl : node = e.stripped.node.withTail [] := by
    have hnode' := (PomNode.elementOf_of_raw rfl).mp hread
    exact Option.some.inj (hnode'.symm.trans (readText?_stripped hnode he))
  obtain ⟨tail, rfl⟩ := eq_of_laidOut hnode he hfound
  have hvalue : ∀ n ∈ pluginParts,
      value? ⟨(e.stripped.node.indentedAt level).withTail tail, none⟩ n = e.laidOutValue? n := by
    intro n hn
    -- the text behind a plugin is not looked at
    have hsame : value? ⟨(e.stripped.node.indentedAt level).withTail tail, none⟩ n =
        value? ⟨e.stripped.node.indentedAt level, none⟩ n := by
      cases e.stripped.node.indentedAt level <;> rfl
    exact hsame.trans ((value?_indentedAt _ _ _ n).trans (he.parts.laidOutValue?_stripped hn))
  have hfilled : ∀ n ∈ pluginParts,
      filled? ⟨(e.stripped.node.indentedAt level).withTail tail, none⟩ n = e.filled? n := by
    intro n hn
    rw [filled?, hvalue n hn, filter_laidOutValue?]
  have hwell : (e.stripped.node.withTail []).WellFormed :=
    hnode.withoutNamespaces.withTail isContent_nil
  refine ⟨_, plugin?_eq_some_iff.mpr ⟨artifactId, (hfilled _ (by decide)).trans hartifact, rfl⟩,
    ⟨?_, rfl, ?_⟩, hvalue _ (by decide)⟩
  · exact congrArg (Option.getD · Plugin.defaultGroup) (hfilled "groupId" (by decide))
  · exact ⟨_, _, _, _, rfl, rfl, readText?_stripped hnode he,
      readText?_indentedAt hnode he level tail, XmlNode.resembles_indentedAt hwell level⟩

end

end

end PomElement

/-! ### All managed plugins -/

namespace PomElement

/-- Where managed plugins stand. -/
def managedPath : List String := ["build", "pluginManagement", "plugins", "plugin"]

section

variable {e : PomElement}

/-- A managed plugin has the name that it was looked for under. -/
theorem name?_of_mem_managedPath {part : PomElement} (h : part ∈ e.partsAlong managedPath) :
    part.node.name? = some (e.name "plugin") := by
  have hlast : e.partsAlong managedPath =
      (e.partsAlong ["build", "pluginManagement", "plugins"]).flatMap fun list =>
        list.partsAlong ["plugin"] :=
    e.partsAlong_append ["build", "pluginManagement", "plugins"] ["plugin"]
  rw [hlast] at h
  obtain ⟨list, hlist, hpart⟩ := List.mem_flatMap.mp h
  obtain ⟨node, -, rfl⟩ := List.mem_map.mp hlist
  rw [partsAlong_cons] at hpart
  obtain ⟨found, hfound, hpart⟩ := List.mem_flatMap.mp hpart
  obtain rfl := List.mem_singleton.mp hpart
  obtain ⟨child, hchild, rfl⟩ := List.mem_map.mp hfound
  exact eq_of_beq (List.mem_filter.mp hchild).2

end

end PomElement

namespace ProjectDescriptor

open PomNode PomElement

section

variable {d : ProjectDescriptor} {managed plugins : List XmlNode}

/-- Nothing is at the end of a way through a part that is not written. -/
theorem flatMap_along_branchIfAny (m : String) (nodes : List XmlNode) (name : XmlName)
    (names : List XmlName) :
    ((branchIfAny m nodes).flatMap fun child => child.along (name :: names)) =
      (nodes.filter fun child => child.name? == some name).flatMap fun child =>
        child.along names := by
  cases nodes with
  | nil => rfl
  | cons first more => exact List.flatMap_singleton _ _

/-- **The elements of managed plugins** stand at the end of their way. -/
theorem along_partsOf (hmanaged : ∀ node ∈ managed, node.name? = some (name "plugin")) :
    (bareRoot (d.partsOf managed plugins)).along (managedPath.map name) = managed := by
  have hbuild : (bareRoot (d.partsOf managed plugins)).childrenNamed (name "build") =
      branchIfAny "build" (branchIfAny "pluginManagement" (branchIfAny "plugins" managed) ++
        branchIfAny "plugins" plugins) := by
    simp [childrenNamed_bareRoot, partsOf, identityNodes]
  have hmanagement : named "pluginManagement" (branchIfAny "pluginManagement"
      (branchIfAny "plugins" managed) ++ branchIfAny "plugins" plugins) =
      branchIfAny "pluginManagement" (branchIfAny "plugins" managed) := by
    simp
  have hplugins : named "plugins" (branchIfAny "plugins" managed) =
      branchIfAny "plugins" managed := by
    simp
  have hall : named "plugin" managed = managed :=
    List.filter_eq_self.mpr fun node hnode => by simp [hmanaged node hnode]
  unfold named at hmanagement hplugins hall
  simp only [managedPath, List.map_cons, List.map_nil]
  rw [XmlNode.along, hbuild, flatMap_along_branchIfAny, hmanagement, flatMap_along_branchIfAny,
    hplugins, flatMap_along_branchIfAny, hall]
  exact List.flatMap_singleton' managed

/-- **The managed plugins of a rendered descriptor** are those that are read from the layout of
their elements. -/
theorem managedPlugins_of_textOf (hparts : ∀ part ∈ d.partsOf managed plugins, part.Presentable)
    (hplain : allUris (managed ++ plugins) = [])
    (hmanaged : ∀ node ∈ managed, node.name? = some (name "plugin")) :
    ∃ root found, readCharacters? (textOf (d.partsOf managed plugins)) = some root ∧
      List.Forall₂ (LaidOut 4) managed found ∧
      (PomElement.ofRoot root).managedPlugins =
        (found.map fun node => (⟨node, none⟩ : PomElement)).filterMap plugin? := by
  rw [← allUris_partsOf d] at hplain
  obtain ⟨text, hroot⟩ := readCharacters?_textOf (by simp [partsOf, identityNodes]) hparts
    (by simp [hplain])
  obtain ⟨tree, htree⟩ : ∃ tree, tree = Xml.readBack none
      (bareRoot (d.partsOf managed plugins)).indented.unified := ⟨_, rfl⟩
  have hlaid : LaidOut 0 (bareRoot (d.partsOf managed plugins)) tree :=
    ⟨tree.tail, by rw [htree, XmlNode.indented, XmlNode.withTail_tail]⟩
  have hfound := hlaid.along (managedPath.map name)
  rw [along_partsOf hmanaged] at hfound
  -- the tree is in no namespace, and what is read of it tells the same as the tree itself
  have hmoved : (⟨tree, none⟩ : PomElement).IsPlain := by
    refine ⟨rfl, ?_⟩
    change XmlNode.IsPlain tree
    rw [htree]
    exact isPlain_readBack (XmlNode.IsPlain.unified ((nodeUris_bareRoot _).trans hplain))
  refine ⟨_, _, hroot, hfound, ?_⟩
  rw [inside_readBack, ← htree]
  have hsame : (PomElement.inside (some pomUri) ⟨tree, none⟩).managedPlugins =
      (⟨tree, none⟩ : PomElement).managedPlugins := hmoved.managedPlugins_inside
  exact hsame

end

/-! ### A rebuild -/

/-- The plugins of every project name no namespace. -/
theorem allUris_buildPlugins {plugins : List XmlNode}
    (h : List.Forall₂ (fun p node => elementOf p = .ok node) buildPlugins plugins) :
    allUris plugins = [] := by
  have hall : ∀ p ∈ buildPlugins, (elementOf p).map nodeUris = .ok [] := by decide +kernel
  refine allUris_eq_nil fun node hnode => ?_
  obtain ⟨p, hp, helement⟩ := exists_of_forall₂ h hnode
  have huris := hall p hp
  rw [helement] at huris
  exact Except.ok.inj huris

/-- What is found in two steps, and always, corresponds to what it was found for. -/
theorem forall₂_filterMap {α β γ δ : Type} {R : α → β → Prop} {R' : β → γ → Prop}
    {S : α → δ → Prop} {f : γ → Option δ} {as : List α} {bs : List β} {cs : List γ}
    (h : List.Forall₂ R as bs) (h' : List.Forall₂ R' bs cs)
    (hf : ∀ a ∈ as, ∀ b c, R a b → R' b c → ∃ d, f c = some d ∧ S a d) :
    List.Forall₂ S as (cs.filterMap f) := by
  induction h generalizing cs with
  | nil =>
      cases h'
      exact .nil
  | @cons a b as bs hab _ ih =>
      cases h' with
      | @cons _ c _ cs hbc hrest =>
          rw [List.forall_mem_cons] at hf
          obtain ⟨d, hd, had⟩ := hf.1 b c hab hbc
          rw [List.filterMap_cons, hd]
          exact .cons had (ih hrest hf.2)

section

variable {root : XmlNode} (hroot : root.WellFormed)
  (hplugins : ∀ e ∈ (PomElement.ofRoot root).partsAlong managedPath,
    e.plugin?.isSome → e.IsKeepable)

include hroot hplugins

/-- The element of a managed plugin is that of its part without namespaces. -/
theorem exists_part_of_managed {p : Plugin} {node : XmlNode}
    (hp : p ∈ (PomElement.ofRoot root).managedPlugins) (helement : elementOf p = .ok node) :
    ∃ e ∈ (PomElement.ofRoot root).partsAlong managedPath, e.node.WellFormed ∧ e.IsKeepable ∧
      e.plugin? = some p ∧ node = e.stripped.node.withTail [] ∧
      e.node.name? = some ⟨e.uri, "plugin".toList⟩ := by
  obtain ⟨e, he, hplugin⟩ := List.mem_filterMap.mp hp
  have hwell : e.node.WellFormed := wellFormed_of_mem_partsAlong (e := .ofRoot root) hroot he
  have hkeepable := hplugins e he (hplugin ▸ rfl)
  refine ⟨e, he, hwell, hkeepable, hplugin, ?_, ?_⟩
  · obtain ⟨artifactId, -, rfl⟩ := plugin?_eq_some_iff.mp hplugin
    have hread := (elementOf_of_raw rfl).mp helement
    exact Option.some.inj (hread.symm.trans (readText?_stripped hwell hkeepable))
  · have hname := name?_of_mem_managedPath he
    obtain ⟨found, -, rfl⟩ := List.mem_map.mp he
    exact hname

/-- It is a plugin in no namespace. -/
theorem isPlain_of_managed {p : Plugin} {node : XmlNode}
    (hp : p ∈ (PomElement.ofRoot root).managedPlugins) (helement : elementOf p = .ok node) :
    nodeUris node = [] ∧ node.name? = some (name "plugin") := by
  obtain ⟨e, -, -, he, -, rfl, hname⟩ := exists_part_of_managed hroot hplugins hp helement
  rw [nodeUris_withTail, XmlNode.name?_withTail, stripped, XmlNode.name?_withoutNamespaces, hname]
  exact ⟨XmlNode.isPlain_withoutNamespaces he.attributes, rfl⟩

/-- A project with such plugins is rendered: only an attribute without a name could be at fault. -/
theorem exists_render_assemble (identity : ProjectIdentity) (dependencies : DependencySet)
    (settings : Settings) (sourcePath : Text) :
    ∃ pom, (assemble identity dependencies (some (.ofRoot sourcePath root)) settings).render =
      .ok pom := by
  cases hpom : (assemble identity dependencies (some (.ofRoot sourcePath root)) settings).render with
  | ok pom => exact ⟨pom, rfl⟩
  | error fault =>
      obtain ⟨e, he, hnames, p, -, hp, -⟩ := render_assemble_eq_error hroot hpom
      have hwell : e.node.WellFormed := wellFormed_of_mem_partsAlong (e := .ofRoot root) hroot he
      have hkeepable := hplugins e he (Option.isSome_iff_exists.mpr ⟨p, hp⟩)
      exact absurd (hwell.namesAttributes hkeepable.attributes) hnames

variable {identity : ProjectIdentity} {dependencies : DependencySet} {settings : Settings}
  (hidentity : ∀ t ∈ identity.texts, IsContent t)
  (hdependencies : ∀ c ∈ dependencies.toList, c.IsWritable) (hsettings : settings.IsWritable)

include hidentity hdependencies hsettings

/-- **The document of a rebuilt project** is that of parts that can be shown, with the elements of
the managed plugins among them. -/
theorem exists_textOf_assemble (sourcePath : Text) :
    ∃ managed plugins, (assemble identity dependencies (some (.ofRoot sourcePath root))
        settings).render = .ok (textOf ((assemble identity dependencies
          (some (.ofRoot sourcePath root)) settings).partsOf managed plugins)) ∧
      List.Forall₂ (fun p node => elementOf p = .ok node) (PomElement.ofRoot root).managedPlugins
        managed ∧
      (∀ part ∈ (assemble identity dependencies (some (.ofRoot sourcePath root)) settings).partsOf
        managed plugins, part.Presentable) ∧
      allUris (managed ++ plugins) = [] ∧
      ∀ node ∈ managed, node.name? = some (name "plugin") := by
  have hembedded : ∀ e, some (EmbeddedDescriptor.ofRoot sourcePath root) = some e →
      e.IsWritable := by
    rintro e ⟨⟩
    exact EmbeddedDescriptor.isWritable_ofRoot hroot sourcePath
  obtain ⟨pom, hpom⟩ := exists_render_assemble hroot hplugins identity dependencies settings
    sourcePath
  obtain ⟨managed, plugins, hmanaged, hown, rfl⟩ :=
    elementOf_of_render (isName_of_mem_assemble hembedded) hpom
  have hplain : ∀ node ∈ managed, nodeUris node = [] ∧ node.name? = some (name "plugin") := by
    intro node hnode
    obtain ⟨p, hp, helement⟩ := exists_of_forall₂ hmanaged hnode
    exact isPlain_of_managed hroot hplugins hp helement
  have hexpressible : (assemble identity dependencies (some (.ofRoot sourcePath root))
      settings).IsExpressible := by
    refine isExpressible_assemble hidentity hsettings hembedded (fun c hc => ?_) ?_
    · exact (hdependencies c hc).content _ (by simp [Coordinate.texts])
    · rintro e ⟨⟩ p hp node helement
      rw [(isPlain_of_managed hroot hplugins hp helement).1]
      exact List.not_mem_nil
  refine ⟨managed, plugins, hpom, hmanaged, ?_, ?_, fun node hnode => (hplain node hnode).2⟩
  · exact presentable_assemble hexpressible.texts (fun c hc _ => hdependencies c hc) hembedded
      hmanaged hown
  · rw [allUris_append, allUris_buildPlugins hown, List.append_nil]
    exact allUris_eq_nil fun node hnode => (hplain node hnode).1

/-- **What a rebuild tells of managed plugins**: their names and elements, and their versions as
those are laid out. -/
theorem isNamedAs_of_rendered (sourcePath renderedPath : Text) :
    ∃ pom embedded,
      (assemble identity dependencies (some (.ofRoot sourcePath root)) settings).render = .ok pom ∧
      EmbeddedDescriptor.ofText? renderedPath pom = some embedded ∧
      EmbeddedDescriptor.ofBytes? renderedPath (Utf8.encode pom) = .ok (some embedded) ∧
      List.Forall₂ (fun p p' : Plugin => p.IsNamedAs p' ∧
          ∃ e ∈ (PomElement.ofRoot root).partsAlong managedPath, e.plugin? = some p ∧
            p'.version = e.laidOutValue? "version")
        (EmbeddedDescriptor.ofRoot sourcePath root).managedPlugins embedded.managedPlugins := by
  obtain ⟨managed, plugins, hpom, hmanaged, hparts, huris, hnames⟩ :=
    exists_textOf_assemble hroot hplugins hidentity hdependencies hsettings sourcePath
  obtain ⟨rendered, found, hread, hfound, htold⟩ := managedPlugins_of_textOf hparts huris hnames
  refine ⟨_, EmbeddedDescriptor.ofRoot renderedPath rendered, hpom, ?_, ?_, ?_⟩
  · rw [EmbeddedDescriptor.ofText?, readText?_textOf, hread]
    rfl
  · rw [EmbeddedDescriptor.ofBytes?, readBytes?_textOf, hread]
    rfl
  · change List.Forall₂ _ _ (PomElement.ofRoot rendered).managedPlugins
    rw [htold, List.filterMap_map]
    refine forall₂_filterMap hmanaged hfound fun p hp node found helement hlaid => ?_
    obtain ⟨e, hmem, hwell, he, hplugin, rfl, -⟩ :=
      exists_part_of_managed hroot hplugins hp helement
    obtain ⟨p', hp', hnamed, hversion⟩ := isNamedAs_of_laidOut hwell he hplugin helement hlaid
    exact ⟨p', hp', hnamed, e, hmem, hplugin, hversion⟩

end

/-- A configuration with an attribute, and with text on both sides of an element. -/
def sampleConfiguration : XmlNode :=
  .element (name "configuration") [(.plain "self".toList, "\"<".toList)] "a & b".toList
    [(leaf "c" []).withTail " d".toList] []

/-- The plugin, with the given version. -/
def managedPart (version : XmlNode) : PomElement :=
  ⟨branch "plugin" [leaf "artifactId" "compiler".toList, version, sampleConfiguration], none⟩

def managing (version : XmlNode) : XmlNode :=
  branch "project" [branch "build" [branch "pluginManagement" [branch "plugins"
    [(managedPart version).node]]]]

section

variable {version : XmlNode}

theorem partsAlong_managing :
    (PomElement.ofRoot (managing version)).partsAlong managedPath = [managedPart version] := rfl

theorem presentable_sampleConfiguration : sampleConfiguration.Presentable := by
  have hinner : ((leaf "c" []).withTail " d".toList).Presentable :=
    .element (.plain (by decide)) ⟨List.forall_mem_nil _, List.forall_mem_nil _, List.nodup_nil⟩
      (List.forall_mem_nil _) (by decide) (by decide) (List.forall_mem_nil _)
  exact .element (.plain (by decide))
    ⟨List.forall_mem_singleton.mpr (.plain (by decide) (by decide)), by decide,
      List.nodup_singleton _⟩
    (by decide) (by decide) (by decide) (List.forall_mem_singleton.mpr hinner)

theorem readText?_managing (h : version.Presentable)
    (hsame : Xml.readBack none (managing version).unified = managing version) :
    readText? (managing version).toText = some (managing version) := by
  have hplugin : (managedPart version).node.Presentable := by
    refine presentable_branch (by decide) ?_
    simp only [List.forall_mem_cons]
    exact ⟨presentable_leaf (by decide) (by decide), h, presentable_sampleConfiguration,
      List.forall_mem_nil _⟩
  have hshown : (managing version).Presentable := by
    repeat' first
      | exact hplugin
      | refine presentable_branch (by decide) (List.forall_mem_singleton.mpr ?_)
  rw [readText?_of_presentable hshown (Option.some_ne_none _), hsame]

theorem isKeepable_managedPart (hname : version.name? = some (name "version"))
    (hattributes : version.attributeNames = []) (htexts : ∀ t ∈ version.textsWithin, '\r' ∉ t)
    (htail : '\r' ∉ version.tail) : (managedPart version).IsKeepable where
  parts := by
    have hnames : ∀ child ∈ (managedPart version).node.children, ∀ given,
        child.name? = some given → given.uri = none := by
      change ∀ child ∈ [leaf "artifactId" "compiler".toList, version, sampleConfiguration], _
      simp only [List.forall_mem_cons]
      refine ⟨?_, ?_, ?_, List.forall_mem_nil _⟩
      · rintro _ ⟨⟩
        rfl
      · intro given hgiven
        exact Option.some.inj (hname.symm.trans hgiven) ▸ rfl
      · rintro _ ⟨⟩
        rfl
    exact fun child hchild given hgiven _ => hnames child hchild given hgiven
  attributes := by
    have hall : (managedPart version).node.attributeNames =
        version.attributeNames ++ sampleConfiguration.attributeNames := rfl
    rw [hall, hattributes]
    decide
  texts := by
    have hall : (managedPart version).node.textsWithin =
        [[], "compiler".toList, []] ++ (version.textsWithin ++ version.tail ::
          (sampleConfiguration.textsWithin ++ [[]])) := rfl
    rw [hall, List.forall_mem_append, List.forall_mem_append]
    exact ⟨by decide, htexts, List.forall_mem_cons.mpr ⟨htail, by decide⟩⟩

end

/-- **A version that does not survive**: it has no text, but an element, and in the rebuilt
project it is empty instead of missing. -/
theorem version_of_rendered_differs :
    ∃ root pom embedded,
      readText? (managing (branch "version" [leaf "x" []])).toText = some root ∧
      (∀ e ∈ (PomElement.ofRoot root).partsAlong managedPath, e.IsKeepable) ∧
      (assemble ⟨[], [], [], []⟩ .empty (some (.ofRoot [] root)) .default).render = .ok pom ∧
      EmbeddedDescriptor.ofText? [] pom = some embedded ∧
      (EmbeddedDescriptor.ofRoot [] root).managedPlugins.map Plugin.version = [none] ∧
      embedded.managedPlugins.map Plugin.version = [some []] := by
  have hversion : (branch "version" [leaf "x" []]).Presentable :=
    presentable_branch (by decide)
      (List.forall_mem_singleton.mpr (presentable_leaf (by decide) (by decide)))
  have hread := readText?_managing hversion rfl
  have hplugins : ∀ e ∈ (PomElement.ofRoot (managing (branch "version" [leaf "x" []]))).partsAlong
      managedPath, e.IsKeepable := by
    rw [partsAlong_managing, List.forall_mem_singleton]
    exact isKeepable_managedPart rfl rfl (by decide) (by decide)
  obtain ⟨pom, embedded, hpom, htext, -, hsame⟩ := @isNamedAs_of_rendered _
    (wellFormed_of_readText? hread) (fun e he _ => hplugins e he) ⟨[], [], [], []⟩ .empty .default
    (by decide) (fun _ hc => absurd hc List.not_mem_nil)
    ⟨by decide, by decide, by decide, by decide⟩ [] []
  refine ⟨_, pom, embedded, hread, hplugins, hpom, htext, rfl, ?_⟩
  obtain ⟨p', rest, ⟨-, e, he, -, hversion⟩, hrest, hall⟩ := List.forall₂_cons_left_iff.mp hsame
  rw [partsAlong_managing] at he
  obtain rfl := List.mem_singleton.mp he
  rw [hall, List.forall₂_nil_left_iff.mp hrest]
  exact congrArg (fun version => [version]) hversion

end ProjectDescriptor

end Unjar
