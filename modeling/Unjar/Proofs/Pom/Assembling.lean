import Unjar.Proofs.PackageTable
import Unjar.Proofs.Pom.Embedding
import Unjar.Resolution

/-!
What can stand in the descriptor of a project.

A project takes over what a packaged descriptor tells; its dependencies may also come from a class
path, a table or a baseline, and its identity and some of its properties from the settings.  If all
of that can stand in a document, and no plugin that was taken over names the namespace of schemas,
then the descriptor of the project is read as its parts; and otherwise it is no document.

Main definitions:

* `Unjar.Resolver.IsWritable` — resolvers whose dependencies can stand in a descriptor;
* `Unjar.Settings.IsWritable` — settings that can;
* `Unjar.ProjectDescriptor.IsExpressible` — **projects that can be expressed**.

Main results:

* `Unjar.Resolver.of_mem_resolve` — where dependencies come from;
* `Unjar.Resolver.isWritable_of_mem_resolve` — **the dependencies of an archive**;
* `Unjar.ProjectDescriptor.presentable_assemble` — the parts of a project;
* `Unjar.ProjectDescriptor.read_assemble`, `Unjar.ProjectDescriptor.isExpressible_of_read` — **the
  descriptor of a project is read as its parts** exactly if it can be expressed.
-/

set_option autoImplicit false

namespace Unjar

open Xml

/-! ### Dependencies found elsewhere -/

namespace Coordinate

/-- A dependency without particulars can stand in a descriptor if its texts can. -/
theorem isWritable_plain {groupId artifactId version scope source : Text}
    (htexts : ∀ t ∈ [groupId, artifactId, version, scope, source], IsContent t)
    (hreturn : '\r' ∉ source) (hhyphens : ¬"--".toList <:+: source) :
    (plain groupId artifactId version scope source).IsWritable := by
  refine ⟨fun t ht => htexts t ?_, hreturn, hhyphens⟩
  simp only [texts, plain, Option.toList, List.flatMap_nil, List.cons_append, List.nil_append,
    List.append_nil, List.mem_cons, List.not_mem_nil, or_false] at ht ⊢
  tauto

end Coordinate

/-- **A resolver whose dependencies can stand in a descriptor.** -/
structure Resolver.IsWritable (r : Resolver) : Prop where
  table : ∀ row ∈ r.table, ∀ t ∈ [row.groupId, row.artifactId, row.version], IsContent t
  baseline : ∀ c ∈ r.baseline, c.IsWritable

theorem DependencySet.mem_insertAll {s : DependencySet} {cs : List Coordinate} {c : Coordinate}
    (h : c ∈ (s.insertAll cs).toList) : c ∈ s.toList ∨ c ∈ cs := by
  induction cs generalizing s with
  | nil => exact .inl h
  | cons first cs ih =>
      rcases ih (s := s.insert first) h with h | h
      · unfold insert at h
        split at h
        · exact .inl h
        · exact (List.mem_append.mp h).imp_right fun h => by simp [List.mem_singleton.mp h]
      · exact .inr (List.mem_cons_of_mem _ h)

theorem DependencySet.mem_ofList {cs : List Coordinate} {c : Coordinate}
    (h : c ∈ (ofList cs).toList) : c ∈ cs :=
  (mem_insertAll h).resolve_left List.not_mem_nil

namespace Resolver

section

variable {r : Resolver} {c : Coordinate}

theorem isWritable_of_match? (hr : r.IsWritable) {type : Name} (h : r.table.match? type = some c) :
    c.IsWritable := by
  obtain ⟨row, hrow, rfl⟩ := PackageTable.exists_row_of_match? h
  have htexts := hr.table row hrow
  simp only [List.forall_mem_cons] at htexts
  obtain ⟨hgroup, hartifact, hversion, -⟩ := htexts
  refine Coordinate.isWritable_plain ?_ (by decide) (by decide +kernel)
  simp only [List.forall_mem_cons]
  exact ⟨hgroup, hartifact, hversion, by decide, by decide, by simp⟩

theorem ne_nil_of_artifactOf {word artifactId : Text} (h : r.artifactOf word = some artifactId) :
    artifactId ≠ [] := by
  unfold artifactOf at h
  dsimp only at h
  split at h
  · cases h
  · obtain ⟨hfilled, hartifact⟩ := Option.ite_none_left_eq_some.mp h
    rw [Option.some.inj hartifact] at hfilled
    simpa using hfilled

/-- **Where dependencies come from**: the packaged descriptor, the table, the class path or the
baseline. -/
theorem of_mem_resolve {P : Coordinate → Prop} {corpus : Corpus} {words : List Text}
    {embedded : Option EmbeddedDescriptor}
    (hembedded : ∀ e, embedded = some e → ∀ c ∈ e.dependencies, P c)
    (htable : ∀ type c, r.table.match? type = some c → P c)
    (hstub : ∀ artifactId, artifactId ≠ [] → P (stub artifactId))
    (hbaseline : ∀ c ∈ r.baseline, P c) :
    ∀ c ∈ (r.resolve corpus words embedded).toList, P c := by
  intro c hc
  unfold resolve at hc
  dsimp only at hc
  split at hc
  · have hdeclared := DependencySet.mem_ofList hc
    cases embedded with
    | none => cases hdeclared
    | some e => exact hembedded e rfl c hdeclared
  · rcases DependencySet.mem_insertAll hc with hc | hc
    · split at hc
      · obtain ⟨⟨owner, types⟩, -, hc⟩ := List.mem_flatMap.mp (DependencySet.mem_ofList hc)
        obtain ⟨type, -, hc⟩ := List.mem_filterMap.mp hc
        exact htable type c hc
      · obtain ⟨artifactId, hartifact, rfl⟩ := List.mem_map.mp (DependencySet.mem_ofList hc)
        obtain ⟨word, -, hartifact⟩ := List.mem_filterMap.mp hartifact
        exact hstub artifactId (ne_nil_of_artifactOf hartifact)
    · exact hbaseline c hc

/-- **The dependencies of an archive** can stand in a descriptor if their artifacts can, whose names
may come from the class path. -/
theorem isWritable_of_mem_resolve (hr : r.IsWritable) {corpus : Corpus} {words : List Text}
    {embedded : Option EmbeddedDescriptor} (hembedded : ∀ e, embedded = some e → e.IsWritable)
    (hc : c ∈ (r.resolve corpus words embedded).toList) (hartifact : IsContent c.artifactId) :
    c.IsWritable := by
  refine of_mem_resolve (P := fun c => IsContent c.artifactId → c.IsWritable)
    (fun e he c hc _ => (hembedded e he).dependencies c hc)
    (fun _ _ hmatch _ => isWritable_of_match? hr hmatch) (fun artifactId _ hartifact => ?_)
    (fun c hc _ => hr.baseline c hc) c hc hartifact
  refine Coordinate.isWritable_plain ?_ (by decide) (by decide +kernel)
  simp only [List.forall_mem_cons]
  exact ⟨by decide, hartifact, by decide, by decide, by decide, by simp⟩

end

end Resolver

/-! ### The project -/

/-- **Settings that can stand in a descriptor.** -/
structure Settings.IsWritable (settings : Settings) : Prop where
  groupId : IsContent settings.groupId
  version : IsContent settings.version
  sourceEncoding : IsContent settings.sourceEncoding
  languageLevel : IsContent settings.languageLevel

namespace ProjectDescriptor

/-- **A project that can be expressed** in a descriptor: its texts can stand in a document, and no
plugin that was taken over names the namespace of schemas. -/
structure IsExpressible (d : ProjectDescriptor) : Prop where
  texts : ∀ t ∈ d.givenTexts, IsContent t
  schemas : ∀ p ∈ d.managedPlugins, ∀ node, PomNode.elementOf p = .ok node →
    schemaInstanceUri ∉ nodeUris node

/-- The plugins of every project can be written. -/
theorem isWritable_of_mem_buildPlugins {p : Plugin} (h : p ∈ buildPlugins) : p.IsWritable := by
  have htexts : ∀ p ∈ buildPlugins, ∀ t ∈ p.texts, IsContent t := by decide +kernel
  exact p.isWritable_of_raw_none (of_mem_buildPlugins h).1 (htexts p h) (of_mem_buildPlugins h).2

section

variable {identity : ProjectIdentity} {dependencies : DependencySet}
  {embedded : Option EmbeddedDescriptor} {settings : Settings} {managed plugins : List XmlNode}

/-- The properties of a project are those of the settings and those taken over. -/
theorem of_mem_properties {P : Text × Text → Prop}
    (hbasic : ∀ entry ∈ basicProperties settings, P entry)
    (hembedded : ∀ e, embedded = some e → ∀ entry ∈ e.properties, P entry) :
    ∀ entry ∈ (assemble identity dependencies embedded settings).properties, P entry := by
  intro entry hentry
  rcases OrderedMap.mem_putAll hentry with hentry | hentry
  · exact hbasic entry hentry
  · cases embedded with
    | none => cases hentry
    | some e => exact hembedded e rfl entry hentry

/-- The plugins that a project manages are those of the packaged descriptor. -/
theorem of_mem_managedPlugins {P : Plugin → Prop}
    (hembedded : ∀ e, embedded = some e → ∀ p ∈ e.managedPlugins, P p) :
    ∀ p ∈ (assemble identity dependencies embedded settings).managedPlugins, P p := by
  intro p hp
  cases embedded with
  | none => cases hp
  | some e => exact hembedded e rfl p hp

/-- The properties of a project have names. -/
theorem isName_of_mem_assemble (hembedded : ∀ e, embedded = some e → e.IsWritable) :
    ∀ entry ∈ (assemble identity dependencies embedded settings).properties,
      isName entry.1 = true :=
  of_mem_properties (fun _ hentry => isName_of_mem_basicProperties hentry)
    fun e he => (hembedded e he).names

/-- **A project can be expressed** if what is added to the packaged descriptor can, and no plugin of
that names the namespace of schemas. -/
theorem isExpressible_assemble (hidentity : ∀ t ∈ identity.texts, IsContent t)
    (hsettings : settings.IsWritable) (hembedded : ∀ e, embedded = some e → e.IsWritable)
    (hartifacts : ∀ c ∈ dependencies.toList, IsContent c.artifactId)
    (hschemas : ∀ e, embedded = some e → ∀ p ∈ e.managedPlugins, ∀ node,
      PomNode.elementOf p = .ok node → schemaInstanceUri ∉ nodeUris node) :
    (assemble identity dependencies embedded settings).IsExpressible where
  texts := by
    simp only [givenTexts, List.forall_mem_append, List.forall_mem_map]
    refine ⟨⟨hidentity, ?_⟩, hartifacts⟩
    refine of_mem_properties (P := fun entry => IsContent entry.2) ?_
      fun e he => (hembedded e he).values
    simp only [basicProperties, List.forall_mem_cons]
    exact ⟨hsettings.sourceEncoding, hsettings.languageLevel, hsettings.languageLevel, by simp⟩
  schemas := of_mem_managedPlugins hschemas

/-- **The parts of a project** that was assembled can be written if its texts can. -/
theorem presentable_assemble
    (htexts : ∀ t ∈ (assemble identity dependencies embedded settings).givenTexts, IsContent t)
    (hdependencies : ∀ c ∈ dependencies.toList, IsContent c.artifactId → c.IsWritable)
    (hembedded : ∀ e, embedded = some e → e.IsWritable)
    (hmanaged : List.Forall₂ (fun p node => PomNode.elementOf p = .ok node)
      (assemble identity dependencies embedded settings).managedPlugins managed)
    (hplugins : List.Forall₂ (fun p node => PomNode.elementOf p = .ok node) buildPlugins plugins) :
    ∀ part ∈ (assemble identity dependencies embedded settings).partsOf managed plugins,
      part.Presentable := by
  simp only [givenTexts, List.forall_mem_append, List.forall_mem_map] at htexts
  obtain ⟨⟨hidentity, hvalues⟩, hartifacts⟩ := htexts
  replace hdependencies : ∀ c ∈ dependencies.toList, c.IsWritable :=
    fun c hc => hdependencies c hc (hartifacts c hc)
  have hmodel : IsContent (assemble identity dependencies embedded settings).modelVersion :=
    show IsContent "4.0.0".toList by decide
  refine presentable_partsOf hmodel ?_ (isName_of_mem_assemble hembedded)
    (fun c hc => ⟨(hdependencies c hc).noReturn, (hdependencies c hc).noHyphens⟩) ?_
  · simp only [texts, List.forall_mem_append, List.forall_mem_map, List.mem_flatMap]
    refine ⟨⟨⟨hidentity, hvalues⟩, ?_⟩, ?_⟩
    · rintro t ⟨r, hr, ht⟩
      cases embedded with
      | none => cases hr
      | some e => exact (hembedded e rfl).repositories r hr t ht
    · rintro t ⟨c, hc, ht⟩
      exact (hdependencies c hc).content t ht
  · rw [List.forall_mem_append]
    constructor
    · intro node hnode
      obtain ⟨p, hp, helement⟩ := exists_of_forall₂ hmanaged hnode
      exact of_mem_managedPlugins (fun e he => (hembedded e he).plugins) p hp node helement
    · intro node hnode
      obtain ⟨p, hp, helement⟩ := exists_of_forall₂ hplugins hnode
      exact ((isWritable_of_mem_buildPlugins hp).of_elementOf helement).1

/-- The plugins of every project do not name the namespace of schemas; those that were taken over
may. -/
theorem not_mem_allUris_iff
    (hmanaged : List.Forall₂ (fun p node => PomNode.elementOf p = .ok node)
      (assemble identity dependencies embedded settings).managedPlugins managed)
    (hplugins : List.Forall₂ (fun p node => PomNode.elementOf p = .ok node) buildPlugins plugins) :
    schemaInstanceUri ∉ allUris (managed ++ plugins) ↔
      ∀ p ∈ (assemble identity dependencies embedded settings).managedPlugins, ∀ node,
        PomNode.elementOf p = .ok node → schemaInstanceUri ∉ nodeUris node := by
  rw [allUris_eq_flatMap, List.mem_flatMap]
  constructor
  · intro hnone p hp node helement huri
    obtain ⟨node', hnode', helement'⟩ := exists_of_forall₂ hmanaged.flip hp
    rw [helement] at helement'
    cases helement'
    exact hnone ⟨node, List.mem_append_left _ hnode', huri⟩
  · rintro hnone ⟨node, hnode, huri⟩
    rcases List.mem_append.mp hnode with hnode | hnode
    · obtain ⟨p, hp, helement⟩ := exists_of_forall₂ hmanaged hnode
      exact hnone p hp node helement huri
    · obtain ⟨p, hp, helement⟩ := exists_of_forall₂ hplugins hnode
      exact ((isWritable_of_mem_buildPlugins hp).of_elementOf helement).2 huri

/-- **The descriptor of a project is read as its parts** if it can be expressed. -/
theorem read_assemble
    (hproject : (assemble identity dependencies embedded settings).IsExpressible)
    (hdependencies : ∀ c ∈ dependencies.toList, IsContent c.artifactId → c.IsWritable)
    (hembedded : ∀ e, embedded = some e → e.IsWritable)
    {pom : Text} (hpom : (assemble identity dependencies embedded settings).render = .ok pom) :
    ∃ managed plugins found,
      pom = textOf ((assemble identity dependencies embedded settings).partsOf managed plugins) ∧
      readCharacters? pom = some found ∧
      PomElement.IsRead
        (bareRoot ((assemble identity dependencies embedded settings).partsOf managed plugins))
        (.ofRoot found) := by
  obtain ⟨managed, plugins, hmanaged, hplugins, rfl⟩ :=
    elementOf_of_render (isName_of_mem_assemble hembedded) hpom
  have hparts := presentable_assemble hproject.texts hdependencies hembedded hmanaged hplugins
  have huris := (not_mem_allUris_iff hmanaged hplugins).mpr hproject.schemas
  obtain ⟨found, hfound, hread, -⟩ := read_partsOf hparts huris
  exact ⟨managed, plugins, found, rfl, hfound, hread⟩

/-- **The descriptor of a project that cannot be expressed is no document.** -/
theorem isExpressible_of_read
    (hdependencies : ∀ c ∈ dependencies.toList, IsContent c.artifactId → c.IsWritable)
    (hembedded : ∀ e, embedded = some e → e.IsWritable) {pom : Text} {found : XmlNode}
    (hpom : (assemble identity dependencies embedded settings).render = .ok pom)
    (hfound : readCharacters? pom = some found) :
    (assemble identity dependencies embedded settings).IsExpressible := by
  obtain ⟨managed, plugins, hmanaged, hplugins, rfl⟩ :=
    elementOf_of_render (isName_of_mem_assemble hembedded) hpom
  have htexts : ∀ t ∈ (assemble identity dependencies embedded settings).givenTexts,
      IsContent t := by
    intro t ht
    obtain ⟨part, hpart, hleaf⟩ : ∃ part ∈ (assemble identity dependencies embedded
        settings).partsOf managed plugins, part.HasLeaf t := hasLeaf_of_mem_givenTexts ht
    exact isContent_of_read_textOf hfound hpart hleaf
  refine ⟨htexts, (not_mem_allUris_iff hmanaged hplugins).mp fun huri => ?_⟩
  have hparts := presentable_assemble htexts hdependencies hembedded hmanaged hplugins
  rw [← allUris_partsOf (assemble identity dependencies embedded settings)] at huri
  rw [readCharacters?_textOf_of_mem (by simp [partsOf, identityNodes]) hparts huri] at hfound
  cases hfound

end

end ProjectDescriptor

end Unjar
