import Unjar.Proofs.Pom.Contents
import Unjar.Proofs.Pom.Placeholder

/-!
Reading undoes rendering.

A descriptor whose texts are read as they are, and that manages no plugins, can be rendered and read
again; nothing of it is lost.  Of a dependency only the source changes, and a dependency without a
scope comes back in the usual one.

Main definitions:

* `Unjar.ProjectDescriptor.HasValues` — **descriptors that can be read as they are**;
* `Unjar.Coordinate.readBack` — a dependency as it is read;
* `Unjar.ProjectDescriptor.readBack` — a descriptor as it is read.

Main result: `Unjar.ProjectDescriptor.ofText?_render` — **reading undoes rendering**.
-/

set_option autoImplicit false

namespace Unjar

open PomElement

/-! ### What is read -/

/-- A dependency as it is read: found in a descriptor, and in the usual scope unless it has one. -/
def Coordinate.readBack (c : Coordinate) : Coordinate :=
  { c with
    scope := some (c.scope.getD Coordinate.compileScope)
    source := dependencySource }

/-- **A descriptor as it is read**, apart from its plugins. -/
def ProjectDescriptor.readBack (d : ProjectDescriptor) (sourcePath : Text) : EmbeddedDescriptor where
  sourcePath := sourcePath
  groupId := some d.identity.groupId
  artifactId := some d.identity.artifactId
  version := some d.identity.version
  dependencies := d.dependencies.toList.map Coordinate.readBack
  properties := d.properties
  repositories := d.repositories
  managedPlugins := []

/-- **A descriptor that can be read as it is**, apart from its plugins. -/
structure ProjectDescriptor.HasValues (d : ProjectDescriptor) : Prop where
  values : ∀ t ∈ d.texts, IsValue t
  /-- The version of the format, which is not read, may stand in a document. -/
  modelVersion : Xml.IsContent d.modelVersion
  /-- Properties have names. -/
  names : ∀ entry ∈ d.properties, Xml.isName entry.1 = true
  distinct : (d.properties.map Prod.fst).Nodup
  /-- No placeholder begins in a dependency. -/
  noPlaceholders : ∀ c ∈ d.dependencies.toList, ∀ t ∈ [c.groupId, c.artifactId] ++ c.version.toList,
    ¬"$\x7b".toList <:+: t
  /-- The source can stand in a remark. -/
  sources : ∀ c ∈ d.dependencies.toList, ¬"--".toList <:+: c.source

/-! ### Values -/

namespace PomElement

section

variable {e : PomElement} {c : Coordinate} {n : String} {t : Text}

theorem IsValue.filled? (ht : IsValue t) (h : e.value? n = PomElement.asRead t) :
    e.filled? n = some t := by
  rw [PomElement.filled?, h, ht.asRead, Option.filter_some]
  simp [ht.filled]

/-- Values that may be missing are read as they are. -/
theorem bind_asRead {t : Option Text} (h : ∀ value, t = some value → IsValue value) :
    t.bind asRead = t := by
  cases t with
  | none => rfl
  | some value => exact (h value rfl).asRead

/-- A scope is read as it is; the usual one is read where none was written. -/
theorem filled?_scope (h : e.Tells c) (hscope : ∀ value, c.scope = some value → IsValue value) :
    (e.filled? "scope").getD Coordinate.compileScope = c.scope.getD Coordinate.compileScope := by
  have htold := h.scope
  rw [writtenScope] at htold
  split at htold
  · next husual =>
    rw [PomElement.filled?, htold, husual]
    rfl
  · cases hs : c.scope with
    | none =>
        rw [hs] at htold
        rw [PomElement.filled?, htold]
        rfl
    | some value =>
        rw [hs] at htold
        rw [(hscope value hs).filled? htold]

/-- The exclusions of a dependency are read as they are. -/
theorem exclusions_of_tells (h : e.Tells c)
    (hvalues : ∀ x ∈ c.exclusions, IsValue x.1 ∧ IsValue x.2) :
    (e.partsAlong ["exclusions", "exclusion"]).filterMap exclusion? = c.exclusions := by
  have hfound := filterMap_of_forall₂ (f := exclusion?) (g := some) h.exclusions ?_
  · rw [hfound, List.filterMap_some]
  · rintro x hx part ⟨hgroup, hartifact⟩
    obtain ⟨hvalue, hvalue'⟩ := hvalues x hx
    rw [exclusion?, hvalue.filled? hgroup, hvalue'.filled? hartifact]
    rfl

/-- **A dependency** without placeholders is read as it is. -/
theorem dependency?_of_tells (known : Properties) (h : e.Tells c)
    (hvalues : ∀ t ∈ c.texts, IsValue t)
    (hplain : ∀ t ∈ [c.groupId, c.artifactId] ++ c.version.toList, ¬"$\x7b".toList <:+: t) :
    dependency? known e = some c.readBack := by
  simp only [Coordinate.texts, List.forall_mem_append, List.forall_mem_cons, List.mem_flatMap,
    Option.mem_toList] at hvalues
  obtain ⟨⟨⟨⟨⟨⟨hgroup, hartifact, -⟩, hversion⟩, hscope⟩, htype⟩, hclassifier⟩, hexclusions⟩ :=
    hvalues
  simp only [List.forall_mem_append, List.forall_mem_cons, Option.mem_toList] at hplain
  obtain ⟨⟨hplainGroup, hplainArtifact, -⟩, hplainVersion⟩ := hplain
  have hgroup' : ((e.value? "groupId").map known.substitute).filter (fun t => !t.isEmpty) =
      some c.groupId := by
    rw [h.groupId, hgroup.asRead, Option.map_some,
      Properties.substitute_of_not_infix hplainGroup, Option.filter_some]
    simp [hgroup.filled]
  have hversion' : (e.value? "version").map known.substitute = c.version := by
    rw [h.version, bind_asRead hversion]
    cases hv : c.version with
    | none => rfl
    | some version =>
        exact congrArg some (Properties.substitute_of_not_infix (hplainVersion version hv))
  have hmark : (e.value? "optional" == some "true".toList) = c.isOptional := by
    rw [h.mark, writtenMark]
    cases c.isOptional
    · rfl
    · rfl
  have hexclusions' := exclusions_of_tells h fun x hx =>
    ⟨hexclusions x.1 ⟨x, hx, by simp⟩, hexclusions x.2 ⟨x, hx, by simp⟩⟩
  unfold dependency?
  rw [hartifact.filled? h.artifactId]
  dsimp only [bind, Option.bind]
  rw [hgroup', hversion', filled?_scope h hscope, hmark, h.type, h.classifier, bind_asRead htype,
    bind_asRead hclassifier, hexclusions', Properties.substitute_of_not_infix hplainArtifact]
  rfl

/-- **A repository** is read as it is. -/
theorem repository?_of_isRead {r : Repository} (h : IsRead (PomNode.ofRepository r) e)
    (hvalues : ∀ t ∈ r.texts, IsValue t) : e.repository? = some r := by
  simp only [Repository.texts, List.forall_mem_append, List.forall_mem_cons,
    Option.mem_toList] at hvalues
  obtain ⟨⟨hid, hurl, -⟩, hname⟩ := hvalues
  obtain ⟨hid', hurl', hname'⟩ := repository_of_isRead h
  rw [repository?, hid.filled? hid', hurl.filled? hurl', hname', bind_asRead hname]
  rfl

end

end PomElement

/-! ### Reading a rendered descriptor -/

namespace ProjectDescriptor

section

variable {d : ProjectDescriptor} {plugins : List XmlNode} {e : PomElement}

/-- **A descriptor without managed plugins** is read as it is. -/
theorem ofRoot_of_isRead (hd : d.HasValues) (sourcePath : Text) {found : XmlNode}
    (h : IsRead (bareRoot (d.partsOf [] plugins)) (.ofRoot found)) :
    EmbeddedDescriptor.ofRoot sourcePath found = d.readBack sourcePath := by
  have hvalues := hd.values
  simp only [texts, ProjectIdentity.texts, List.forall_mem_append, List.forall_mem_map,
    List.mem_flatMap, List.forall_mem_cons] at hvalues
  obtain ⟨⟨⟨⟨hgroup, hartifact, hversion, -⟩, hproperties⟩, hrepositories⟩, hdependencies⟩ := hvalues
  obtain ⟨hgroup', hartifact', hversion', -⟩ := identity_of_isRead h
  obtain ⟨hparts, hrepositories'⟩ := repositories_of_isRead h
  obtain ⟨hfound, hdependencies'⟩ := dependencies_of_isRead h
  have hproperties' : (PomElement.ofRoot found).properties = d.properties := by
    have hall : d.properties.filterMap (fun entry => (asRead entry.2).map (entry.1, ·)) =
        d.properties := by
      refine (List.filterMap_congr fun entry hentry => ?_).trans List.filterMap_some
      rw [(hproperties entry hentry).asRead]
      rfl
    rw [properties_of_isRead h, hall, OrderedMap.ofList_of_nodup hd.distinct]
  have hrepositories'' : (PomElement.ofRoot found).repositories = d.repositories := by
    rw [hrepositories', filterMap_of_forall₂ hparts fun r hr part hpart =>
      repository?_of_isRead hpart fun t ht => hrepositories t ⟨r, hr, ht⟩, List.filterMap_some]
  have hdependencies'' : ∀ known, (PomElement.ofRoot found).dependencies known =
      d.dependencies.toList.map Coordinate.readBack := by
    intro known
    rw [hdependencies', filterMap_of_forall₂ hfound fun c hc part hpart =>
      dependency?_of_tells known (tells_of_isRead hpart)
        (fun t ht => hdependencies t ⟨c, hc, ht⟩) (hd.noPlaceholders c hc)]
    exact congrFun List.filterMap_eq_map' _
  unfold EmbeddedDescriptor.ofRoot readBack
  dsimp only
  rw [hdependencies'', hproperties', hrepositories'', managedPlugins_of_isRead h, hartifact',
    hartifact.asRead, PomElement.inherited?, PomElement.inherited?, hgroup.filled? hgroup',
    hversion.filled? hversion']
  rfl

/-- The text of a descriptor that manages no plugins, if its own can be written. -/
theorem render_eq_textOf (hd : d.HasValues) (hmanaged : d.managedPlugins = [])
    (hplugins : ∀ p ∈ d.plugins, p.IsWritable) :
    ∃ nodes : List XmlNode, d.render = .ok (textOf (d.partsOf [] nodes)) ∧
      ∀ node ∈ nodes, node.Presentable ∧ schemaInstanceUri ∉ Xml.nodeUris node := by
  have : Nonempty XmlNode := ⟨.comment [] []⟩
  choose! elementOf helement hwritable using hplugins
  have helements : List.Forall₂ (fun p node => PomNode.elementOf p = .ok node) d.plugins
      (d.plugins.map elementOf) :=
    List.forall₂_map_right_iff.mpr (List.forall₂_same.mpr helement)
  have hnoElements : List.Forall₂ (fun p node => PomNode.elementOf p = .ok node)
      d.managedPlugins [] := by
    rw [hmanaged]
    exact .nil
  refine ⟨d.plugins.map elementOf, ?_, List.forall_mem_map.mpr hwritable⟩
  rw [render, toXml_eq_ok hd.names hnoElements helements]
  rfl

/-- **The text of a descriptor** without managed plugins is read as it is. -/
theorem ofText?_textOf (hd : d.HasValues) (sourcePath : Text)
    (hplugins : ∀ node ∈ plugins, node.Presentable ∧ schemaInstanceUri ∉ Xml.nodeUris node) :
    EmbeddedDescriptor.ofText? sourcePath (textOf (d.partsOf [] plugins)) =
      some (d.readBack sourcePath) := by
  have hsources : ∀ c ∈ d.dependencies.toList, '\r' ∉ c.source ∧ ¬"--".toList <:+: c.source := by
    intro c hc
    refine ⟨(hd.values c.source ?_).noReturn, hd.sources c hc⟩
    simp only [texts, List.mem_append, List.mem_flatMap]
    exact .inr ⟨c, hc, by simp [Coordinate.texts]⟩
  have hparts : ∀ part ∈ d.partsOf [] plugins, part.Presentable :=
    presentable_partsOf hd.modelVersion (fun t ht => (hd.values t ht).content) hd.names hsources
      fun node hnode => (hplugins node hnode).1
  have hxsi : schemaInstanceUri ∉ Xml.allUris ([] ++ plugins) := by
    rw [List.nil_append, Xml.allUris_eq_flatMap, List.mem_flatMap]
    rintro ⟨node, hnode, huri⟩
    exact (hplugins node hnode).2 huri
  obtain ⟨found, hfound, hread, -⟩ := read_partsOf hparts hxsi
  rw [EmbeddedDescriptor.ofText?, readText?_textOf, hfound, Option.map_some,
    ofRoot_of_isRead hd sourcePath hread]

/-- **Reading undoes rendering** for every descriptor that manages no plugins, whose texts are read as
they are and whose own plugins can be written: it is rendered, and what is read of that is what was
rendered. -/
theorem ofText?_render (hd : d.HasValues) (hmanaged : d.managedPlugins = [])
    (hplugins : ∀ p ∈ d.plugins, p.IsWritable) (sourcePath : Text) :
    ∃ pom, d.render = .ok pom ∧
      EmbeddedDescriptor.ofText? sourcePath pom = some (d.readBack sourcePath) := by
  obtain ⟨nodes, hrender, hnodes⟩ := render_eq_textOf hd hmanaged hplugins
  exact ⟨_, hrender, ofText?_textOf hd sourcePath hnodes⟩

end

/-! ### Descriptors that are read back, and others -/

/-- A descriptor with something of everything, and with characters that must be escaped. -/
def sample : ProjectDescriptor where
  identity := ⟨"g".toList, "a & b".toList, "1".toList, "jar".toList⟩
  properties := [("p.q".toList, "<x>".toList), ("r".toList, "$\x7bp.q\x7d".toList)]
  dependencies := ⟨[
    ⟨"unknown".toList, "lib".toList, none, none, "manifest-classpath".toList, none,
      some "\"jdk\"".toList, true, [("x".toList, "]]>".toList), ("x".toList, "y".toList)]⟩,
    .plain "org".toList "core".toList "2".toList "test".toList "baseline".toList]⟩
  plugins := [⟨"b".toList, "compiler".toList, some "3".toList,
    [("source".toList, "8".toList)], none⟩]
  repositories := [⟨"r1".toList, "https://r?a=1&b=2".toList, none⟩,
    ⟨"r2".toList, "file:r".toList, some "second".toList⟩]
  managedPlugins := []
  modelVersion := " 4.1\r".toList

theorem hasValues_sample : sample.HasValues where
  values := by decide +kernel
  modelVersion := by decide +kernel
  names := by decide +kernel
  distinct := by decide +kernel
  noPlaceholders := by decide +kernel
  sources := by decide +kernel

theorem isWritable_of_mem_sample : ∀ p ∈ sample.plugins, p.IsWritable := by
  intro p hp
  obtain rfl := List.mem_singleton.mp hp
  exact Plugin.isWritable_of_raw_none rfl (by decide +kernel) (by decide +kernel)

theorem ofText?_render_sample : ∃ pom, sample.render = .ok pom ∧
    EmbeddedDescriptor.ofText? "pom.xml".toList pom = some (sample.readBack "pom.xml".toList) :=
  ofText?_render hasValues_sample rfl isWritable_of_mem_sample "pom.xml".toList

/-- The same descriptor with a plugin that has a setting without a name. -/
def misnamed : ProjectDescriptor :=
  { sample with plugins := [⟨"b".toList, "compiler".toList, none, [("a b".toList, [])], none⟩] }

theorem hasValues_misnamed : misnamed.HasValues := by
  obtain ⟨values, modelVersion, names, distinct, noPlaceholders, sources⟩ := hasValues_sample
  exact ⟨values, modelVersion, names, distinct, noPlaceholders, sources⟩

/-- The same descriptor with a property that is named by an ideographic comma.  It begins names from
the fifth edition of XML on, and none that are read. -/
def lateNamed : ProjectDescriptor :=
  { sample with properties := [("\u3001".toList, "x".toList)] }

/-- The same descriptor in a version of the format that holds a control character. -/
def ofControlVersion : ProjectDescriptor := { sample with modelVersion := "4\x01".toList }

/-- **Not all of a descriptor is read back**: a dependency without a scope comes back in the usual
one, and a plugin with a setting that has no name keeps the descriptor from being read at all.  So do
a property with a late name, and a character in the version of the format that no document holds. -/
theorem readBack_differs :
    (sample.HasValues ∧ sample.managedPlugins = [] ∧ ∃ pom embedded, sample.render = .ok pom ∧
      EmbeddedDescriptor.ofText? [] pom = some embedded ∧
      embedded.dependencies.map Coordinate.scope ≠
        sample.dependencies.toList.map Coordinate.scope) ∧
    misnamed.HasValues ∧
    ∀ d ∈ [misnamed, lateNamed, ofControlVersion], (∀ t ∈ d.texts, IsValue t) ∧
      d.managedPlugins = [] ∧ ∃ pom, d.render = .ok pom ∧
        EmbeddedDescriptor.ofText? [] pom = none := by
  refine ⟨⟨hasValues_sample, rfl, ?_⟩, hasValues_misnamed, fun d hd => ?_⟩
  · obtain ⟨nodes, hrender, hnodes⟩ :=
      render_eq_textOf hasValues_sample rfl isWritable_of_mem_sample
    refine ⟨_, _, hrender, ofText?_textOf hasValues_sample [] hnodes, ?_⟩
    decide
  · -- none of the three texts can be read
    have hnone : ∀ d ∈ [misnamed, lateNamed, ofControlVersion], (∀ t ∈ d.texts, IsValue t) ∧
        d.managedPlugins = [] ∧ d.render.map (EmbeddedDescriptor.ofText? []) = .ok none := by
      decide +kernel
    obtain ⟨hvalues, hmanaged, hread⟩ := hnone d hd
    refine ⟨hvalues, hmanaged, ?_⟩
    cases hpom : d.render with
    | error fault =>
        rw [hpom] at hread
        cases hread
    | ok pom =>
        rw [hpom] at hread
        exact ⟨pom, rfl, Except.ok.inj hread⟩

end ProjectDescriptor

end Unjar
