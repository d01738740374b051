import Unjar.Proofs.Xml.Prefixes
import Unjar.Proofs.Xml.Written

/-!
Written names, resolved.

A name is written with the prefix of its namespace, and is resolved to itself where the prefixes of
the table are in force; an element without a prefix comes to be in the namespace that is declared for
such elements.  So a start tag that is written comes back with its name, its attributes and their
values, and the declarations in the tag of the root bring the prefixes into force.

Main definitions:

* `Unjar.XmlName.inside` — the name of an element among others of a namespace;
* `Unjar.Xml.Scope.Carries` — the prefixes of a table are in force;
* `Unjar.Xml.Prefixes.declared` — the declarations of a table;
* `Unjar.Xml.Declares` — declarations in the tag of a root.

Main results:

* `Unjar.Xml.Scope.carries_bindAll?` — declarations bring the prefixes into force;
* `Unjar.Xml.Scope.Carries.bind_nil`, `Unjar.Xml.Scope.Carries.bind` — declarations beside them;
* `Unjar.Xml.Prefixes.IsSound.declares`, `Unjar.Xml.Declares.concat` — declarations for a root;
* `Unjar.Xml.resolve?_written` — **a start tag comes back**.
-/

set_option autoImplicit false

namespace Unjar

/-- **The name of an element** where elements without a prefix are in a namespace. -/
def XmlName.inside (outer : Option Text) (name : XmlName) : XmlName :=
  ⟨name.uri.or outer, name.localName⟩

@[simp] theorem XmlName.inside_none (name : XmlName) : name.inside none = name := by
  rw [inside, Option.or_none]

namespace Xml

/-! ### Names as they are written -/

/-- A name whose namespace has a prefix, and whose local name is a name. -/
structure Prefixes.Spells (table : Prefixes) (name : XmlName) : Prop where
  uri : ∀ uri, name.uri = some uri → table.Names uri
  localName : isName name.localName = true

section

variable {table : Prefixes} {name name' : XmlName}

theorem Prefixes.IsSound.isQualifiedName (h : table.IsSound) (hname : table.Spells name) :
    isQualifiedName (table.qualified name) = true := by
  unfold Prefixes.qualified
  split
  · exact isQualifiedName_iff.mpr (.inl hname.localName)
  · next uri huri =>
    refine isQualifiedName_iff.mpr (.inr ⟨_, _, rfl, ?_, hname.localName⟩)
    exact (h.isName_prefixOf (hname.uri uri huri)).1

theorem colon_not_mem {t : Text} (h : isName t = true) : ':' ∉ t :=
  not_mem_of_isName h (by decide)

/-- A name with a prefix is cut at its colon. -/
theorem cutAtFirst_qualified {p n : Text} (hp : isName p = true) :
    cutAtFirst ':' (p ++ ':' :: n) = some (p, n) := cutAtFirst_append n (colon_not_mem hp)

theorem Prefixes.IsSound.qualified_injective (h : table.IsSound) (hname : table.Spells name)
    (hname' : table.Spells name') (heq : table.qualified name = table.qualified name') :
    name = name' := by
  obtain ⟨uri, localName⟩ := name
  obtain ⟨uri', localName'⟩ := name'
  -- a name has no colon, so that the first colon is the one behind the prefix
  have hcut := congrArg (cutAtFirst ':') heq
  cases uri with
  | none =>
      cases uri' with
      | none => exact congrArg _ heq
      | some uri' =>
          rw [Prefixes.qualified, Prefixes.qualified,
            cutAtFirst_eq_none (colon_not_mem hname.localName),
            cutAtFirst_qualified (h.isName_prefixOf (hname'.uri uri' rfl)).1] at hcut
          cases hcut
  | some uri =>
      cases uri' with
      | none =>
          rw [Prefixes.qualified, Prefixes.qualified,
            cutAtFirst_eq_none (colon_not_mem hname'.localName),
            cutAtFirst_qualified (h.isName_prefixOf (hname.uri uri rfl)).1] at hcut
          cases hcut
      | some uri' =>
          rw [Prefixes.qualified, Prefixes.qualified,
            cutAtFirst_qualified (h.isName_prefixOf (hname.uri uri rfl)).1,
            cutAtFirst_qualified (h.isName_prefixOf (hname'.uri uri' rfl)).1] at hcut
          simp only [Option.some.injEq, Prod.mk.injEq] at hcut
          rw [h.prefixOf_injective (hname.uri uri rfl) (hname'.uri uri' rfl) hcut.1, hcut.2]

/-- The name of an attribute is not taken for a declaration. -/
theorem Prefixes.IsSound.declared?_qualified (h : table.IsSound) (hname : table.Spells name)
    (hattribute : IsAttributeName name) : Scope.declared? (table.qualified name) = none := by
  have hnone : ∀ t, t ≠ Scope.declarationName → (∀ r, t ≠ Scope.declarationName ++ ':' :: r) →
      Scope.declared? t = none := by
    intro t hne hlabel
    rw [Scope.declared?, if_neg (by simpa using hne)]
    cases hdrop : dropPrefix? (Scope.declarationName ++ [':']) t with
    | none => rfl
    | some rest => exact absurd (by simpa using dropPrefix?_eq_some hdrop) (hlabel rest)
  have hdeclaration : Xml.isName Scope.declarationName = true := by decide
  cases hattribute with
  | plain _ hne =>
      refine hnone _ hne fun r heq => ?_
      refine absurd ?_ (colon_not_mem hname.localName)
      rw [show (XmlName.plain _).localName = _ from heq]
      exact List.mem_append_cons_self
  | @within uri n huri _ _ =>
      obtain ⟨hlabel, hne⟩ := h.isName_prefixOf (hname.uri uri rfl)
      refine hnone _ (fun heq => ?_) fun r heq => ?_
      · have hcut := congrArg (cutAtFirst ':') heq
        rw [Prefixes.qualified, cutAtFirst_qualified hlabel,
          cutAtFirst_eq_none (colon_not_mem hdeclaration)] at hcut
        cases hcut
      · have hcut := congrArg (cutAtFirst ':') heq
        rw [Prefixes.qualified, cutAtFirst_qualified hlabel,
          cutAtFirst_qualified hdeclaration] at hcut
        simp only [Option.some.injEq, Prod.mk.injEq] at hcut
        exact hne hcut.1

end

/-! ### Prefixes in force -/

namespace Scope

/-- **The prefixes of a table are in force**, and elements without a prefix are in the outer
namespace, if there is one. -/
structure Carries (table : Prefixes) (outer : Option Text) (scope : Scope) : Prop where
  plain : scope.lookup [] = outer
  nonempty : outer ≠ some []
  within : ∀ uri, table.Names uri → scope.lookup (table.prefixOf uri) = some uri

section

variable {table : Prefixes} {outer : Option Text} {scope : Scope} {name : XmlName}

theorem Carries.attributeName? (h : scope.Carries table outer) (htable : table.IsSound)
    (hname : table.Spells name) : scope.attributeName? (table.qualified name) = some name := by
  obtain ⟨uri, localName⟩ := name
  cases uri with
  | none =>
      rw [Prefixes.qualified, Scope.attributeName?,
        cutAtFirst_eq_none (colon_not_mem hname.localName)]
      rfl
  | some uri =>
      have huri := hname.uri uri rfl
      rw [Prefixes.qualified, Scope.attributeName?,
        cutAtFirst_qualified (htable.isName_prefixOf huri).1]
      dsimp only
      rw [Scope.prefixedName?, h.within uri huri]
      rfl

theorem Carries.elementName? (h : scope.Carries table outer) (htable : table.IsSound)
    (hname : table.Spells name) :
    scope.elementName? (table.qualified name) = some (name.inside outer) := by
  obtain ⟨uri, localName⟩ := name
  cases uri with
  | none =>
      rw [Prefixes.qualified, Scope.elementName?,
        cutAtFirst_eq_none (colon_not_mem hname.localName)]
      dsimp only
      rw [h.plain]
      cases outer with
      | none => rfl
      | some uri =>
          cases uri with
          | nil => exact absurd rfl h.nonempty
          | cons c r => rfl
  | some uri =>
      have huri := hname.uri uri rfl
      rw [Prefixes.qualified, Scope.elementName?,
        cutAtFirst_qualified (htable.isName_prefixOf huri).1]
      dsimp only
      rw [Scope.prefixedName?, h.within uri huri]
      rfl

/-! ### Declarations -/

theorem bindAll?_of_declared?_eq_none {attributes : List (Text × Text)}
    (h : ∀ a ∈ attributes, declared? a.1 = none) : scope.bindAll? attributes = some scope := by
  induction attributes with
  | nil => rfl
  | cons a attributes ih =>
      rw [List.forall_mem_cons] at h
      rw [bindAll?, h.1]
      exact ih h.2

theorem bindAll?_append {a b : List (Text × Text)} {inner : Scope}
    (h : scope.bindAll? a = some inner) : scope.bindAll? (a ++ b) = inner.bindAll? b := by
  induction a generalizing scope with
  | nil =>
      cases h
      rfl
  | cons one a ih =>
      rw [bindAll?] at h
      rw [List.cons_append, bindAll?]
      split at h
      · exact ih h
      · obtain ⟨next, hnext, h⟩ := Option.bind_eq_some_iff.mp h
        rw [hnext]
        exact ih h

/-- The declaration of a prefix for a namespace. -/
def declaration (entry : Text × Text) : Text × Text := (declarationName ++ ':' :: entry.2, entry.1)

theorem declared?_declaration (entry : Text × Text) :
    declared? (declaration entry).1 = some entry.2 := by
  have hdrop : dropPrefix? (declarationName ++ [':']) (declarationName ++ [':'] ++ entry.2) =
      some entry.2 := dropPrefix?_append _ _
  rw [List.append_assoc] at hdrop
  rw [declared?, declaration, if_neg (by simp)]
  exact hdrop

theorem bind?_of_isSound (htable : table.IsSound) {entry : Text × Text} (hentry : entry ∈ table) :
    scope.bind? entry.2 entry.1 = some ((entry.2, entry.1) :: scope) := by
  obtain ⟨huri, hxml⟩ := htable.namespaces entry.1 entry.2 hentry
  obtain ⟨hname, hlabelXml, hlabel⟩ := htable.isName hentry
  have hdeclarable : isDeclarable entry.2 entry.1 = true := by
    simp [isDeclarable, huri.nonempty, hlabel, huri.ne_declarationUri, hlabelXml, hxml,
      huri.no_brace]
  rw [bind?, if_pos hdeclarable]

/-- Declarations put their prefixes in front of a scope. -/
theorem bindAll?_declarations (htable : table.IsSound) {entries : List (Text × Text)}
    (hentries : ∀ entry ∈ entries, entry ∈ table) :
    scope.bindAll? (entries.map declaration) =
      some ((entries.map Prod.swap).reverse ++ scope) := by
  induction entries generalizing scope with
  | nil => rfl
  | cons entry entries ih =>
      rw [List.forall_mem_cons] at hentries
      rw [List.map_cons, bindAll?, declared?_declaration]
      change (scope.bind? entry.2 entry.1).bind _ = _
      rw [bind?_of_isSound htable hentries.1]
      change bindAll? _ _ = _
      rw [ih hentries.2, List.map_cons, List.reverse_cons, List.append_assoc]
      rfl

end

end Scope

/-! ### The declarations of a table -/

namespace Prefixes

/-- The entries of a table, in the order of their prefixes as texts. -/
def sorted (table : Prefixes) : Prefixes := table.mergeSort fun a b => Text.le a.2 b.2

/-- The declarations of a table. -/
def declared (table : Prefixes) : WrittenAttributes := table.sorted.map Scope.declaration

section

variable {table : Prefixes}

theorem mem_sorted {entry : Text × Text} : entry ∈ table.sorted ↔ entry ∈ table :=
  (List.mergeSort_perm table _).mem_iff

theorem IsSound.nodup_sorted (h : table.IsSound) : (table.sorted.map Prod.snd).Nodup :=
  ((List.mergeSort_perm table _).map Prod.snd).nodup_iff.mpr h.labels

theorem declarations_eq (table : Prefixes) : table.declarations = writeAll table.declared := by
  change List.flatMap _ table.sorted = _
  rw [writeAll, declared, List.flatMap_map]
  refine List.flatMap_congr fun entry _ => ?_
  simp [Scope.declaration, Scope.declarationName]

/-- Each declares a prefix. -/
theorem declared?_of_mem_declared {a : Text × Text} (ha : a ∈ table.declared) :
    Scope.declared? a.1 ≠ none := by
  obtain ⟨entry, -, rfl⟩ := List.mem_map.mp ha
  rw [Scope.declared?_declaration]
  exact Option.some_ne_none _

theorem IsSound.written_declared (h : table.IsSound) :
    ∀ a ∈ table.declared, Xml.isQualifiedName a.1 = true ∧ IsContent a.2 := by
  intro a ha
  have hdeclaration : Xml.isName Scope.declarationName = true := by decide
  obtain ⟨⟨uri, label⟩, hentry, rfl⟩ := List.mem_map.mp ha
  rw [mem_sorted] at hentry
  refine ⟨isQualifiedName_iff.mpr (.inr ⟨_, _, rfl, hdeclaration, (h.isName hentry).1⟩), ?_⟩
  exact (h.namespaces uri label hentry).1.content

theorem IsSound.nodup_declared (h : table.IsSound) : (table.declared.map Prod.fst).Nodup := by
  have hmap : table.declared.map Prod.fst =
      (table.sorted.map Prod.snd).map fun label => Scope.declarationName ++ ':' :: label := by
    rw [declared, List.map_map, List.map_map]
    rfl
  rw [hmap]
  refine h.nodup_sorted.map fun label label' heq => ?_
  exact List.cons_injective (List.append_cancel_left heq)

end

end Prefixes

section

variable {table : Prefixes} {scope : Scope}

/-- **Declarations bring the prefixes of a table into force.** -/
theorem Scope.carries_bindAll? (htable : table.IsSound) :
    ∃ scope, Scope.outermost.bindAll? table.declared = some scope ∧ scope.Carries table none := by
  refine ⟨_, bindAll?_declarations htable fun entry hentry => Prefixes.mem_sorted.mp hentry, ?_⟩
  have hmem : ∀ entry, entry ∈ (table.sorted.map Prod.swap).reverse ↔ entry.swap ∈ table := by
    intro entry
    rw [List.mem_reverse, List.mem_map]
    constructor
    · rintro ⟨given, hgiven, rfl⟩
      simpa using Prefixes.mem_sorted.mp hgiven
    · exact fun h => ⟨entry.swap, Prefixes.mem_sorted.mpr h, entry.swap_swap⟩
  -- no prefix is declared twice, so that looking one up finds its namespace whatever the order
  have hkeys : (((table.sorted.map Prod.swap).reverse ++ Scope.outermost).map Prod.fst).Nodup := by
    rw [List.map_append, List.map_reverse, List.map_map]
    refine List.nodup_append.mpr ⟨List.nodup_reverse.mpr htable.nodup_sorted, by decide, ?_⟩
    rintro label hlabel _ hxml rfl
    obtain ⟨entry, hentry, rfl⟩ := List.mem_map.mp (List.mem_reverse.mp hlabel)
    exact (htable.isName (Prefixes.mem_sorted.mp hentry)).2.1 (List.mem_singleton.mp hxml)
  constructor
  · rw [List.lookup_eq_none_iff]
    intro entry hentry
    rw [bne_iff_ne]
    rcases List.mem_append.mp hentry with hentry | hentry
    · have hname := (htable.isName ((hmem entry).mp hentry)).1
      intro heq
      rw [← heq] at hname
      cases hname
    · rw [List.mem_singleton.mp hentry]
      decide
  · intro hnone
    cases hnone
  · intro uri huri
    refine lookup_eq_some_of_mem hkeys (List.mem_append.mpr ?_)
    rcases htable.cases huri with ⟨rfl, hlabel⟩ | hentry
    · rw [hlabel]
      exact .inr (List.mem_singleton.mpr rfl)
    · exact .inl ((hmem _).mpr hentry)

/-- **Another namespace declared** for elements without a prefix. -/
theorem Scope.Carries.bind_nil {outer : Option Text} (h : scope.Carries table outer)
    (htable : table.IsSound) {uri : Text} (huri : uri ≠ []) :
    Scope.Carries table (some uri) (([], uri) :: scope) := by
  refine ⟨rfl, by simpa using huri, fun other hother => ?_⟩
  have hne : table.prefixOf other ≠ [] := by
    intro hnil
    have hname := (htable.isName_prefixOf hother).1
    rw [hnil] at hname
    cases hname
  rw [List.lookup_cons, beq_eq_false_iff_ne.mpr hne]
  exact h.within other hother

/-- **Another prefix declared** that the table does not use. -/
theorem Scope.Carries.bind {outer : Option Text} (h : scope.Carries table outer) {label uri : Text}
    (hlabel : label ≠ []) (hfresh : ∀ other, table.Names other → table.prefixOf other ≠ label) :
    Scope.Carries table outer ((label, uri) :: scope) := by
  refine ⟨?_, h.nonempty, fun other hother => ?_⟩
  · rw [List.lookup_cons, beq_eq_false_iff_ne.mpr (Ne.symm hlabel)]
    exact h.plain
  · rw [List.lookup_cons, beq_eq_false_iff_ne.mpr (hfresh other hother)]
    exact h.within other hother

/-! ### The tag of a root -/

/-- **Declarations in the tag of a root** that bring the prefixes of a table into force, elements
without a prefix being in the outer namespace. -/
structure Declares (table : Prefixes) (outer : Option Text) (declared : WrittenAttributes) :
    Prop where
  written : ∀ a ∈ declared, isQualifiedName a.1 = true ∧ IsContent a.2
  distinct : (declared.map Prod.fst).Nodup
  declares : ∀ a ∈ declared, Scope.declared? a.1 ≠ none
  scope : ∃ scope, Scope.outermost.bindAll? declared = some scope ∧ scope.Carries table outer

/-- The declarations of a table. -/
theorem Prefixes.IsSound.declares (htable : table.IsSound) :
    Declares table none table.declared where
  written := htable.written_declared
  distinct := htable.nodup_declared
  declares := fun _ ha => declared?_of_mem_declared ha
  scope := Scope.carries_bindAll? htable

/-- Another namespace for elements without a prefix. -/
theorem Declares.concat (htable : table.IsSound) {uri : Text} (huri : IsNamespace uri)
    (hxml : uri ≠ xmlUri) :
    Declares table (some uri) (table.declared ++ [(Scope.declarationName, uri)]) where
  written := by
    rw [List.forall_mem_append, List.forall_mem_singleton]
    have hname : isQualifiedName Scope.declarationName = true := by decide
    exact ⟨htable.written_declared, hname, huri.content⟩
  distinct := by
    rw [List.map_append]
    refine List.nodup_append.mpr ⟨htable.nodup_declared, List.nodup_singleton _, ?_⟩
    rintro name hname _ hlast rfl
    obtain ⟨a, ha, rfl⟩ := List.mem_map.mp hname
    obtain ⟨entry, -, rfl⟩ := List.mem_map.mp ha
    exact absurd (List.mem_singleton.mp hlast) (by simp [Scope.declaration])
  declares := by
    rw [List.forall_mem_append, List.forall_mem_singleton]
    exact ⟨fun _ ha => Prefixes.declared?_of_mem_declared ha, Option.some_ne_none []⟩
  scope := by
    obtain ⟨scope, hbind, hscope⟩ := Scope.carries_bindAll? htable
    have hdeclarable : Scope.isDeclarable [] uri = true := by
      have hlabel : (([] : Text) != Scope.declarationName) = true ∧
          (([] : Text) == xmlPrefix) = false := by decide
      simp only [Scope.isDeclarable, hlabel.1, hlabel.2, beq_eq_false_iff_ne.mpr hxml]
      simp [huri.ne_declarationUri, huri.no_brace]
    refine ⟨_, ?_, hscope.bind_nil htable huri.nonempty⟩
    rw [Scope.bindAll?_append hbind]
    change (Scope.bind? scope [] uri).bind _ = _
    rw [Scope.bind?, if_pos hdeclarable]
    rfl

/-! ### Start tags -/

theorem attributeCharacter?_of_ne {c : Char} (hlt : c ≠ '<') (hreturn : c ≠ '\r')
    (hfeed : c ≠ '\n') (htab : c ≠ '\t') : Entities.attributeCharacter? c = some c := by
  rw [Entities.attributeCharacter?, if_neg (by simpa using hlt)]
  split
  · next hspace =>
    simp only [isSpace, Bool.or_eq_true, beq_iff_eq] at hspace
    rcases hspace with ((rfl | rfl) | rfl) | rfl
    · rfl
    · exact absurd rfl htab
    · exact absurd rfl hfeed
    · exact absurd rfl hreturn
  · rfl

/-- A character of a value is written as a reference, or may stand for itself within one. -/
theorem attributePiece_cases (c : Char) : attributePiece c = .referred c ∨
    attributePiece c = .plain c ∧ Entities.attributeCharacter? c = some c := by
  unfold attributePiece textPiece
  split
  · exact .inl rfl
  · next hattribute =>
    split
    · exact .inl rfl
    · next htext =>
      simp only [not_or] at hattribute htext
      obtain ⟨-, hreturn, hfeed, htab⟩ := hattribute
      exact .inr ⟨rfl, attributeCharacter?_of_ne htext.2.1 hreturn hfeed htab⟩

/-- A value comes back from its pieces. -/
theorem attributeWithin?_attributePiece (e : Entities) (depth : Nat) (t : Text) :
    e.attributeWithin? depth (t.map attributePiece) = some t := by
  induction t with
  | nil => simp [Entities.attributeWithin?]
  | cons c t ih =>
      rw [List.map_cons]
      rcases attributePiece_cases c with hpiece | ⟨hpiece, hcharacter⟩
      · rw [hpiece, Entities.attributeWithin?, ih]
        rfl
      · rw [hpiece, Entities.attributeWithin?, ih, hcharacter]
        rfl

theorem valueOf?_written (standsAlone : Bool) (tag : Text) (a : Text × Text) :
    Tag.valueOf? (.empty standsAlone) tag (a.1, a.2.map attributePiece) = some a := by
  rw [Tag.valueOf?, Doctype.attributeValue?, Entities.attributeText?,
    attributeWithin?_attributePiece]
  rfl

/-- **A start tag comes back**, if its names do. -/
theorem resolve?_written {standsAlone : Bool} {outer : Scope} {tag : Text} {name : XmlName}
    {written : WrittenAttributes} {attributes : XmlAttributes}
    (hwritten : (written.map Prod.fst).Nodup) (hscope : outer.bindAll? written = some scope)
    (hattributes : Tag.resolveAttributes? scope written = some attributes)
    (hdistinct : (attributes.map Prod.fst).Nodup) (hname : scope.elementName? tag = some name) :
    Tag.resolve? (.empty standsAlone) outer tag (rawAttributes written) =
      some ⟨tag, name, attributes, scope⟩ := by
  have hfirst : (rawAttributes written).map Prod.fst = written.map Prod.fst := by
    rw [rawAttributes, List.map_map]
    rfl
  have hvalues : (rawAttributes written).mapM (Tag.valueOf? (.empty standsAlone) tag) =
      some written := by
    have hall := mapM_eq_some_map (l := written) (g := id) fun a _ =>
      valueOf?_written standsAlone tag a
    rw [rawAttributes, List.mapM_map]
    rwa [List.map_id] at hall
  unfold Tag.resolve?
  dsimp only
  rw [hfirst, hvalues, if_neg (by simp [Tag.areDistinct_iff.mpr hwritten])]
  simp [Tag.defaults, Doctype.empty, hscope, hattributes, hname, Tag.areDistinct_iff.mpr hdistinct]

/-- No attribute may be written twice. -/
theorem resolve?_eq_none_of_not_nodup {d : Doctype} {outer : Scope} {tag : Text}
    {attributes : List RawAttribute} (h : ¬(attributes.map Prod.fst).Nodup) :
    Tag.resolve? d outer tag attributes = none := by
  have htwice : Tag.areDistinct (attributes.map Prod.fst) = false := by
    rw [Bool.eq_false_iff, ne_eq, Tag.areDistinct_iff]
    exact h
  rw [Tag.resolve?, htwice]
  rfl

end

end Xml

end Unjar
