import Unjar.Proofs.Pom.Contents
import Unjar.Proofs.Pom.Placeholder
import Unjar.Proofs.Xml.Undeclared

/-!
What a packaged descriptor brings along.

Whatever is told by a document can stand in a document again: its texts hold the characters of XML,
its properties have names, and the plugins that it manages can be written if they can be read back.

Main definitions:

* `Unjar.Coordinate.IsWritable`, `Unjar.EmbeddedDescriptor.IsWritable` — **what can stand in a
  descriptor**.

Main results:

* `Unjar.PomElement.isWritable_of_dependency?` — the dependencies of a document;
* `Unjar.EmbeddedDescriptor.isWritable_ofRoot` — **what a packaged descriptor tells**.
-/

set_option autoImplicit false

namespace Unjar

open Xml

/-! ### Texts of a document -/

theorem isContent_text {node : XmlNode} (h : node.WellFormed) : IsContent node.text := by
  cases h with
  | element _ _ htext _ _ => exact htext

theorem strip_subset (t : Text) : Text.strip t ⊆ t := by
  intro c hc
  have hstart := (List.dropWhile_sublist _).subset (List.mem_reverse.mp hc)
  exact (List.dropWhile_sublist _).subset (List.mem_reverse.mp hstart)

/-- Where values and a text can stand in a document, so can the text with its placeholders
replaced. -/
theorem Xml.IsContent.substitute {known : Properties} {t : Text} (ht : IsContent t)
    (hknown : ∀ entry ∈ known, IsContent entry.2) : IsContent (known.substitute t) := by
  intro c hc
  rcases Properties.mem_substitute hc with hc | ⟨entry, hentry, hc⟩
  · exact ht c hc
  · exact hknown entry hentry c hc

namespace PomElement

section

variable {e : PomElement} {t : Text} {n : String}

theorem isContent_text? (h : e.node.WellFormed) (ht : e.text? = some t) : IsContent t := by
  unfold text? at ht
  split at ht
  · cases ht
  · cases ht
    exact (isContent_text h).subset (strip_subset _)

theorem wellFormed_of_part? {part : PomElement} (h : e.node.WellFormed)
    (hpart : e.part? n = some part) : part.node.WellFormed := by
  obtain ⟨node, hnode, rfl⟩ := Option.map_eq_some_iff.mp hpart
  exact h.of_mem_children (List.mem_of_find?_eq_some hnode)

theorem wellFormed_of_mem_parts {part : PomElement} (h : e.node.WellFormed)
    (hpart : part ∈ e.parts n) : part.node.WellFormed := by
  obtain ⟨node, hnode, rfl⟩ := List.mem_map.mp hpart
  exact h.of_mem_children (List.mem_filter.mp hnode).1

theorem wellFormed_of_mem_partsAlong {part : PomElement} {names : List String}
    (h : e.node.WellFormed) (hpart : part ∈ e.partsAlong names) : part.node.WellFormed := by
  obtain ⟨node, hnode, rfl⟩ := List.mem_map.mp hpart
  exact h.of_mem_along hnode

theorem isContent_value? (h : e.node.WellFormed) (ht : e.value? n = some t) : IsContent t := by
  obtain ⟨part, hpart, ht⟩ := Option.bind_eq_some_iff.mp ht
  exact isContent_text? (wellFormed_of_part? h hpart) ht

theorem isContent_filled? (h : e.node.WellFormed) (ht : e.filled? n = some t) : IsContent t :=
  isContent_value? h (Option.eq_some_of_filter_eq_some ht)

theorem isContent_inherited? (h : e.node.WellFormed) (ht : e.inherited? n = some t) :
    IsContent t := by
  rcases Option.or_eq_some_iff.mp ht with ht | ⟨-, ht⟩
  · exact isContent_filled? h ht
  · obtain ⟨parent, hparent, ht⟩ := Option.bind_eq_some_iff.mp ht
    exact isContent_value? (wellFormed_of_part? h hparent) ht

theorem isContent_of_mem_properties (h : e.node.WellFormed) {entry : Text × Text}
    (hentry : entry ∈ e.properties) : IsContent entry.2 := by
  unfold properties at hentry
  split at hentry
  · cases hentry
  · next list hlist =>
    rcases OrderedMap.mem_putAll hentry with hentry | hentry
    · cases hentry
    · obtain ⟨child, hchild, hread⟩ := List.mem_filterMap.mp hentry
      have htext := isContent_text ((wellFormed_of_part? h hlist).of_mem_children hchild)
      unfold property? at hread
      split at hread
      · cases hread
      · split at hread
        · cases hread
        · cases hread
          exact htext.subset (strip_subset _)

theorem isContent_of_repository? (h : e.node.WellFormed) {r : Repository}
    (hr : e.repository? = some r) : ∀ t ∈ r.texts, IsContent t := by
  obtain ⟨id, hid, hr⟩ := Option.bind_eq_some_iff.mp hr
  obtain ⟨url, hurl, hr⟩ := Option.bind_eq_some_iff.mp hr
  cases hr
  simp only [Repository.texts, List.forall_mem_append, List.forall_mem_cons, Option.mem_toList]
  exact ⟨⟨isContent_filled? h hid, isContent_filled? h hurl, fun _ hnil => absurd hnil
    List.not_mem_nil⟩, fun name hname => isContent_value? h hname⟩

theorem isContent_of_exclusion? (h : e.node.WellFormed) {x : Text × Text}
    (hx : e.exclusion? = some x) : IsContent x.1 ∧ IsContent x.2 := by
  obtain ⟨groupId, hgroup, hx⟩ := Option.bind_eq_some_iff.mp hx
  obtain ⟨artifactId, hartifact, hx⟩ := Option.bind_eq_some_iff.mp hx
  cases hx
  exact ⟨isContent_filled? h hgroup, isContent_filled? h hartifact⟩

end

end PomElement

/-! ### Dependencies -/

/-- **A dependency that can stand in a descriptor**, with a remark about its source in front of it. -/
structure Coordinate.IsWritable (c : Coordinate) : Prop where
  content : ∀ t ∈ c.texts, IsContent t
  noReturn : '\r' ∉ c.source
  noHyphens : ¬"--".toList <:+: c.source

theorem isContent_getD {t : Option Text} {other : Text} (ht : ∀ text, t = some text → IsContent text)
    (hother : IsContent other) : IsContent (t.getD other) := by
  cases t with
  | none => exact hother
  | some text => exact ht text rfl

/-- **A dependency of a document** can stand in another. -/
theorem PomElement.isWritable_of_dependency? {e : PomElement} {known : Properties} {c : Coordinate}
    (h : e.node.WellFormed) (hknown : ∀ entry ∈ known, IsContent entry.2)
    (hc : dependency? known e = some c) : c.IsWritable := by
  obtain ⟨artifactId, hartifact, hc⟩ := Option.bind_eq_some_iff.mp hc
  cases hc
  have hsource : '\r' ∉ dependencySource ∧ ¬"--".toList <:+: dependencySource := by
    decide +kernel
  refine ⟨?_, hsource.1, hsource.2⟩
  have hsubstituted : ∀ n t, (e.value? n).map known.substitute = some t → IsContent t := by
    intro n t ht
    obtain ⟨value, hvalue, rfl⟩ := Option.map_eq_some_iff.mp ht
    exact (isContent_value? h hvalue).substitute hknown
  simp only [Coordinate.texts, List.forall_mem_append, List.forall_mem_cons, List.mem_flatMap,
    Option.mem_toList]
  -- only the names and the version hold placeholders that are replaced
  refine ⟨⟨⟨⟨⟨⟨?_, ?_, by decide, by simp⟩, ?_⟩, ?_⟩, ?_⟩, ?_⟩, ?_⟩
  · refine isContent_getD (fun text htext => ?_) (by decide)
    exact hsubstituted "groupId" text (Option.eq_some_of_filter_eq_some htext)
  · exact (isContent_filled? h hartifact).substitute hknown
  · exact fun text htext => hsubstituted "version" text htext
  · rintro scope ⟨⟩
    exact isContent_getD (fun text htext => isContent_filled? h htext) (by decide)
  · exact fun text htext => isContent_value? h htext
  · exact fun text htext => isContent_value? h htext
  · rintro text ⟨x, hx, htext⟩
    obtain ⟨part, hpart, hx⟩ := List.mem_filterMap.mp hx
    obtain ⟨hgroup, hartifact⟩ :=
      isContent_of_exclusion? (wellFormed_of_mem_partsAlong h hpart) hx
    simp only [List.mem_cons, List.not_mem_nil, or_false] at htext
    rcases htext with rfl | rfl
    · exact hgroup
    · exact hartifact

/-! ### The descriptor as a whole -/

/-- **What was recovered can stand in a descriptor.** -/
structure EmbeddedDescriptor.IsWritable (embedded : EmbeddedDescriptor) : Prop where
  dependencies : ∀ c ∈ embedded.dependencies, c.IsWritable
  names : ∀ entry ∈ embedded.properties, isName entry.1 = true
  values : ∀ entry ∈ embedded.properties, IsContent entry.2
  repositories : ∀ r ∈ embedded.repositories, ∀ t ∈ r.texts, IsContent t
  /-- Plugins that are read back can be written. -/
  plugins : ∀ p ∈ embedded.managedPlugins, ∀ node, PomNode.elementOf p = .ok node → node.Presentable

namespace EmbeddedDescriptor

theorem mem_addDefault {properties : Properties} {n : String} {value : Option Text}
    {entry : Text × Text} (h : entry ∈ addDefault properties n value) :
    entry ∈ properties ∨ value = some entry.2 := by
  unfold addDefault at h
  split at h
  · exact .inl h
  · exact .inl h
  · rcases OrderedMap.mem_putNew h with h | rfl
    · exact .inl h
    · exact .inr rfl

theorem mem_knownProperties {properties : Properties} {groupId artifactId version : Option Text}
    {entry : Text × Text} (h : entry ∈ knownProperties properties groupId artifactId version) :
    entry ∈ properties ∨ groupId = some entry.2 ∨ version = some entry.2 ∨
      artifactId = some entry.2 := by
  rcases mem_addDefault h with h | h
  · rcases mem_addDefault h with h | h
    · exact (mem_addDefault h).imp_right .inl
    · exact .inr (.inr (.inl h))
  · exact .inr (.inr (.inr h))

/-- **What a packaged descriptor tells** can stand in a descriptor. -/
theorem isWritable_ofRoot {root : XmlNode} (h : root.WellFormed) (sourcePath : Text) :
    (ofRoot sourcePath root).IsWritable := by
  have he : (PomElement.ofRoot root).node.WellFormed := h
  constructor
  case dependencies =>
    intro c hc
    have hknown : ∀ entry ∈ knownProperties (PomElement.ofRoot root).properties
        ((PomElement.ofRoot root).inherited? "groupId")
        ((PomElement.ofRoot root).value? "artifactId")
        ((PomElement.ofRoot root).inherited? "version"), IsContent entry.2 := by
      intro entry hentry
      rcases mem_knownProperties hentry with hentry | hvalue | hvalue | hvalue
      · exact PomElement.isContent_of_mem_properties he hentry
      · exact PomElement.isContent_inherited? he hvalue
      · exact PomElement.isContent_inherited? he hvalue
      · exact PomElement.isContent_value? he hvalue
    change c ∈ (PomElement.ofRoot root).dependencies _ at hc
    unfold PomElement.dependencies at hc
    split at hc
    · cases hc
    · next list hlist =>
      obtain ⟨part, hpart, hc⟩ := List.mem_filterMap.mp hc
      exact PomElement.isWritable_of_dependency?
        (PomElement.wellFormed_of_mem_parts (PomElement.wellFormed_of_part? he hlist) hpart)
        hknown hc
  case names => exact fun entry hentry => PomElement.isName_of_mem_properties he hentry
  case values => exact fun entry hentry => PomElement.isContent_of_mem_properties he hentry
  case repositories =>
    intro r hr
    change r ∈ (PomElement.ofRoot root).repositories at hr
    unfold PomElement.repositories at hr
    split at hr
    · cases hr
    · next list hlist =>
      obtain ⟨part, hpart, hr⟩ := List.mem_filterMap.mp hr
      exact PomElement.isContent_of_repository?
        (PomElement.wellFormed_of_mem_parts (PomElement.wellFormed_of_part? he hlist) hpart) hr
  case plugins =>
    intro p hp node hnode
    obtain ⟨part, hpart, hplugin⟩ := List.mem_filterMap.mp hp
    have hwell := PomElement.wellFormed_of_mem_partsAlong he hpart
    -- a plugin is kept as text, and its attributes need not have names until that is read again
    obtain ⟨artifactId, -, hplugin⟩ := Option.bind_eq_some_iff.mp hplugin
    cases hplugin
    exact presentable_of_readText? hwell ((PomNode.elementOf_of_raw rfl).mp hnode)

end EmbeddedDescriptor

end Unjar
