import Unjar.Pom.Rendering
import Unjar.Proofs.Utf8
import Unjar.Proofs.Xml.Layout

/-!
Rendered descriptors as documents.

A descriptor is written behind a declaration, with the prefixes of its tree and the namespaces of
descriptors declared in the tag of its root.  A reader finds the root in the namespace of descriptors
and its tree within it, from the text as from its bytes.  One prefix is given twice if the tree names
the namespace of schemas, and then there is no document.

Main definitions:

* `Unjar.ProjectDescriptor.rootOf`, `Unjar.ProjectDescriptor.textOf` — the root around the parts of a
  descriptor, and its text.

Main results:

* `Unjar.ProjectDescriptor.readHeading?_heading`, `Unjar.ProjectDescriptor.decode?_heading` — what the
  declaration says;
* `Unjar.ProjectDescriptor.resolve?_root` — the tag of the root;
* `Unjar.ProjectDescriptor.read_textOf` — **what a rendered descriptor is read as**;
* `Unjar.ProjectDescriptor.readCharacters?_textOf_of_mem` — when it is no document.
-/

set_option autoImplicit false

namespace Unjar.ProjectDescriptor

open Xml PomNode

/-! ### The declaration -/

/-- The declaration is read as what it says, whatever follows it. -/
theorem readHeading?_heading (t : Text) :
    Heading.read? (heading ++ t) = some (⟨some "UTF-8".toList, false⟩, '\n' :: t) := by
  have hcut : cutAtPattern "?>".toList (" version=\"1.0\" encoding=\"UTF-8\"".toList ++
      ("?>".toList ++ '\n' :: t)) =
      some (" version=\"1.0\" encoding=\"UTF-8\"".toList, '\n' :: t) :=
    cutAtPattern_append _ (by decide +kernel)
  have hitems : (Heading.readItems? 3 " version=\"1.0\" encoding=\"UTF-8\"".toList).bind
      Heading.ofItems? = some ⟨some "UTF-8".toList, false⟩ := by
    decide +kernel
  have hahead : Heading.isAhead (heading ++ t) = true := rfl
  have hdrop : (heading ++ t).drop Heading.opening.length =
      " version=\"1.0\" encoding=\"UTF-8\"".toList ++ ("?>".toList ++ '\n' :: t) := rfl
  obtain ⟨items, hread, hof⟩ := Option.bind_eq_some_iff.mp hitems
  rw [Heading.read?, hahead, Bool.not_true, if_neg Bool.false_ne_true, hdrop, hcut]
  -- the two steps of what is read between the marks
  refine Option.bind_eq_some_iff.mpr ⟨_, rfl, ?_⟩
  refine Option.bind_eq_some_iff.mpr ⟨items, hread, ?_⟩
  exact Option.bind_eq_some_iff.mpr ⟨_, hof, rfl⟩

/-- The bytes of the declaration, which is written in characters of one byte. -/
theorem encode_heading (t : Text) : ∃ r, Utf8.encode (heading ++ t) = 60 :: 63 :: r ∧
    (Utf8.encode (heading ++ t)).map (fun b => Char.ofNat b.toNat) =
      heading ++ (Utf8.encode t).map fun b => Char.ofNat b.toNat := by
  have hstart : Utf8.encode heading = 60 :: 63 :: (Utf8.encode heading).drop 2 := by
    decide +kernel
  have hmap : (Utf8.encode heading).map (fun b => Char.ofNat b.toNat) = heading := by
    decide +kernel
  have happend : Utf8.encode (heading ++ t) = Utf8.encode heading ++ Utf8.encode t :=
    List.flatMap_append
  refine ⟨(Utf8.encode heading).drop 2 ++ Utf8.encode t, ?_, ?_⟩
  · rw [happend, hstart]
    rfl
  · rw [happend, List.map_append, hmap]

/-- **The bytes of a text behind the declaration** are read as that text. -/
theorem decode?_heading (t : Text) :
    decode? (Utf8.encode (heading ++ t)) = .ok (some (heading ++ t)) := by
  have hdecode := Utf8.decode_encode (heading ++ t)
  obtain ⟨r, hr, hmap⟩ := encode_heading t
  rw [hr] at hdecode hmap ⊢
  have hwide : wideForm? (60 :: 63 :: r) = none := rfl
  have hmark : dropMark (60 :: 63 :: r) = 60 :: 63 :: r := rfl
  rw [decode?, hwide]
  dsimp only
  rw [hmark, hmap, readHeading?_heading]
  dsimp only
  rw [decodeAs?, Option.getD_some, if_pos (by decide +kernel), hdecode]

/-! ### The root -/

/-- The root around the parts of a descriptor. -/
def rootOf (parts : List XmlNode) : XmlNode :=
  .element (name "project") rootAttributes [] parts []

/-- The text of a descriptor with some parts. -/
def textOf (parts : List XmlNode) : Text := heading ++ (rootOf parts).indented.toText ++ ['\n']

/-- The attributes of the root, by the names under which they are written. -/
def rootWritten : WrittenAttributes :=
  [("xmlns".toList, pomUri), ("xmlns:xsi".toList, schemaInstanceUri),
    ("xsi:schemaLocation".toList, pomUri ++ " https://maven.apache.org/xsd/maven-4.0.0.xsd".toList)]

/-- The attributes of the root as they are read. -/
def rootResolved : XmlAttributes :=
  [(⟨some schemaInstanceUri, "schemaLocation".toList⟩,
    pomUri ++ " https://maven.apache.org/xsd/maven-4.0.0.xsd".toList)]

section

variable {table : Prefixes}

theorem label_ne_of_not_mem (htable : table.IsNumbered)
    (hxsi : schemaInstanceUri ∉ table.map Prod.fst) {other : Text} (hother : table.Names other) :
    table.prefixOf other ≠ "xsi".toList := by
  have hlabel : customaryPrefixes.lookup schemaInstanceUri = some "xsi".toList := by
    decide +kernel
  exact htable.prefixOf_ne hlabel hxsi hother

/-- No attribute of the root is written twice. -/
theorem nodup_declared_rootWritten (htable : table.IsNumbered)
    (hxsi : schemaInstanceUri ∉ table.map Prod.fst) :
    ((table.declared ++ rootWritten).map Prod.fst).Nodup := by
  rw [List.map_append]
  refine List.nodup_append.mpr ⟨htable.nodup_declared, by decide +kernel, ?_⟩
  rintro n hn _ hn' rfl
  obtain ⟨a, ha, rfl⟩ := List.mem_map.mp hn
  obtain ⟨⟨uri, label⟩, hentry, rfl⟩ := List.mem_map.mp ha
  rw [Prefixes.mem_sorted] at hentry
  have hlabel : label ≠ "xsi".toList := by
    rw [← htable.prefixOf_eq hentry]
    exact label_ne_of_not_mem htable hxsi (.inr (List.mem_map_of_mem (f := Prod.fst) hentry))
  -- a declaration of the table has a colon, so that only the prefix of the root could be its own
  have hcases : Scope.declarationName ++ ':' :: label = "xmlns".toList ∨
      Scope.declarationName ++ ':' :: label = "xmlns:xsi".toList ∨
      Scope.declarationName ++ ':' :: label = "xsi:schemaLocation".toList := by
    simpa [rootWritten, Scope.declaration] using hn'
  rcases hcases with h | h | h
  · simp [Scope.declarationName] at h
  · exact hlabel (by simpa [Scope.declarationName] using h)
  · simp [Scope.declarationName] at h

/-- **The tag of the root** is in the namespace of descriptors, and so are the elements within it that
have no prefix. -/
theorem resolve?_root (htable : table.IsNumbered)
    (hxsi : schemaInstanceUri ∉ table.map Prod.fst) :
    ∃ scope, scope.Carries table (some pomUri) ∧
      Tag.resolve? (.empty false) .outermost "project".toList
          (rawAttributes (table.declared ++ rootWritten)) =
        some ⟨"project".toList, ⟨some pomUri, "project".toList⟩, rootResolved, scope⟩ := by
  obtain ⟨scope, hbind, hscope⟩ := Scope.carries_bindAll? htable.toIsSound
  have huri : pomUri ≠ [] := by decide
  have hlabel : "xsi".toList ≠ [] := by decide
  have hcarries : Scope.Carries table (some pomUri)
      (("xsi".toList, schemaInstanceUri) :: ([], pomUri) :: scope) :=
    (hscope.bind_nil htable.toIsSound huri).bind hlabel
      fun other hother => label_ne_of_not_mem htable hxsi hother
  refine ⟨_, hcarries, resolve?_written (nodup_declared_rootWritten htable hxsi) ?_ ?_ (by decide)
    rfl⟩
  · rw [Scope.bindAll?_append hbind]
    rfl
  · have hfilter : (table.declared ++ rootWritten).filter
        (fun a => (Scope.declared? a.1).isNone) = [("xsi:schemaLocation".toList,
          pomUri ++ " https://maven.apache.org/xsd/maven-4.0.0.xsd".toList)] := by
      rw [List.filter_append, List.filter_eq_nil_iff.mpr]
      · rfl
      · intro a ha
        simpa using Prefixes.declared?_of_mem_declared ha
    change List.mapM _ (List.filter (fun a : Text × Text => (Scope.declared? a.1).isNone) _) = _
    rw [hfilter]
    rfl

/-! ### The document -/

theorem written_declared_rootWritten (htable : table.IsSound) :
    ∀ a ∈ table.declared ++ rootWritten, isQualifiedName a.1 = true ∧ IsContent a.2 := by
  have hroot : ∀ a ∈ rootWritten, isQualifiedName a.1 = true ∧ IsContent a.2 := by
    decide +kernel
  exact List.forall_mem_append.mpr ⟨htable.written_declared, hroot⟩

/-- **A root that is written behind the declaration** is read as the tokens of the tree. -/
theorem readCharacters?_root_eq (htable : table.IsSound) {text tail : Text}
    {children : List XmlNode} (h : Spelt table (.element (name "project") [] text children tail)) :
    readCharacters? (heading ++ (writeNode table (writeAll (table.declared ++ rootWritten))
        (.element (name "project") [] text children tail) ++ ['\n'])) =
      buildTokens? (.empty false) [] (.startTag "project".toList
        (rawAttributes (table.declared ++ rootWritten)) ::
          (textTokens (Text.unifyLineEnds text) ++
            childrenTokens table (XmlNode.allUnified children) ++ [.endTag "project".toList])) := by
  have hwritten := written_declared_rootWritten htable
  have hqualified : ∀ a ∈ table.declared ++ rootWritten, isQualifiedName a.1 = true :=
    fun a ha => (hwritten a ha).1
  have hcontent : IsContent (heading ++ (writeNode table (writeAll (table.declared ++ rootWritten))
      (.element (name "project") [] text children tail) ++ ['\n'])) :=
    isContent_append.mpr ⟨by decide +kernel,
      isContent_append.mpr ⟨h.isContent_writeNode htable hwritten, by decide⟩⟩
  -- line ends are unified before anything is read, which changes the texts of the tree only
  have hlines : Text.unifyLineEnds (heading ++ (writeNode table
      (writeAll (table.declared ++ rootWritten))
      (.element (name "project") [] text children tail) ++ ['\n'])) =
      heading ++ (writeNode table (writeAll (table.declared ++ rootWritten))
        (XmlNode.unified (.element (name "project") [] text children tail)) ++ ['\n']) := by
    rw [Text.unifyLineEnds_append_of_not_mem (by decide +kernel),
      h.unifyLineEnds_writeNode htable hqualified]
    rfl
  have hspelt := h.unified
  rw [XmlNode.unified] at hlines hspelt
  rw [readCharacters?, if_pos (isContent_iff_all.mp hcontent), hlines]
  have hwritable := hspelt.writable htable
  have hname : isQualifiedName (table.qualified (name "project")) = true :=
    show isQualifiedName "project".toList = true by decide
  obtain ⟨c, r, hc, hshape⟩ := writeNode_head hname (writeAll (table.declared ++ rootWritten)) []
    (Text.unifyLineEnds text) (XmlNode.allUnified children) (Text.unifyLineEnds tail)
  -- between the declaration and the root, and behind the root, a line ends and nothing else is said
  have hprolog : readProlog? false ('\n' :: (writeNode table
      (writeAll (table.declared ++ rootWritten)) (.element (name "project") []
        (Text.unifyLineEnds text) (XmlNode.allUnified children) (Text.unifyLineEnds tail)) ++
        ['\n'])) = some (.empty false, writeNode table
      (writeAll (table.declared ++ rootWritten)) (.element (name "project") []
        (Text.unifyLineEnds text) (XmlNode.allUnified children) (Text.unifyLineEnds tail)) ++
        ['\n']) := by
    rw [hshape]
    exact readProlog?_of_isNameStart hc false rfl
  have hafter : tokens? ['\n'] = some [.text [.plain '\n']] := by
    have htoken : textToken? ['\n'] = some (.text [.plain '\n']) := by decide
    rw [tokens?_of_ne (by decide)]
    simp [htoken, tokens?]
  rw [readRoot?_of_writeNode hwritable hqualified (readHeading?_heading _) hprolog hafter rfl,
    nodeTokens, show writtenAttributes table [] = [] from rfl, List.append_nil]
  rfl

/-- **The root is read back**, with the line ends of documents, if its tag is. -/
theorem readCharacters?_root (htable : table.IsNumbered)
    (hxsi : schemaInstanceUri ∉ table.map Prod.fst) {text tail : Text} {children : List XmlNode}
    (h : Spelt table (.element (name "project") [] text children tail)) :
    readCharacters? (heading ++ (writeNode table (writeAll (table.declared ++ rootWritten))
        (.element (name "project") [] text children tail) ++ ['\n'])) =
      some (.element ⟨some pomUri, "project".toList⟩ rootResolved
        (Text.unifyLineEnds text ++ (readBackAll (some pomUri) (XmlNode.allUnified children)).1)
        (readBackAll (some pomUri) (XmlNode.allUnified children)).2 []) := by
  have hspelt := h.unified
  rw [XmlNode.unified] at hspelt
  have hchildren : ∀ child ∈ XmlNode.allUnified children, Spelt table child := by
    cases hspelt with
    | element _ _ _ _ _ hchildren => exact hchildren
  obtain ⟨scope, hscope, htag⟩ := resolve?_root htable hxsi
  rw [readCharacters?_root_eq htable.toIsSound h]
  exact buildTokens?_root htable.toIsSound hchildren htag rfl hscope _

/-- **The prefix of schemas is given twice** if the tree names their namespace. -/
theorem not_nodup_declared_rootWritten (htable : table.IsNumbered)
    (hxsi : schemaInstanceUri ∈ table.map Prod.fst) :
    ¬((table.declared ++ rootWritten).map Prod.fst).Nodup := by
  obtain ⟨⟨uri, label⟩, hentry, huri⟩ := List.mem_map.mp hxsi
  dsimp only at huri
  subst huri
  have hcustomary : customaryPrefixes.lookup schemaInstanceUri = some "xsi".toList := by
    decide +kernel
  -- the table gives it the customary prefix, which the root declares by hand
  obtain rfl : label = "xsi".toList := by
    rcases htable.spelling _ _ hentry with hlabel | ⟨hnone, -⟩
    · exact (Option.some.inj (hcustomary.symm.trans hlabel)).symm
    · rw [hcustomary] at hnone
      cases hnone
  have hdeclared : "xmlns:xsi".toList ∈ table.declared.map Prod.fst := by
    refine List.mem_map.mpr ⟨_, List.mem_map_of_mem (Prefixes.mem_sorted.mpr hentry), ?_⟩
    decide
  intro hnodup
  rw [List.map_append] at hnodup
  exact (List.nodup_append.mp hnodup).2.2 _ hdeclared _ (by decide) rfl

/-- So there is no document. -/
theorem readCharacters?_root_of_mem (htable : table.IsNumbered)
    (hxsi : schemaInstanceUri ∈ table.map Prod.fst) {text tail : Text} {children : List XmlNode}
    (h : Spelt table (.element (name "project") [] text children tail)) :
    readCharacters? (heading ++ (writeNode table (writeAll (table.declared ++ rootWritten))
        (.element (name "project") [] text children tail) ++ ['\n'])) = none := by
  have hfirst : (rawAttributes (table.declared ++ rootWritten)).map Prod.fst =
      (table.declared ++ rootWritten).map Prod.fst := by
    rw [rawAttributes, List.map_map]
    rfl
  have htwice := not_nodup_declared_rootWritten htable hxsi
  rw [← hfirst] at htwice
  rw [readCharacters?_root_eq htable.toIsSound h]
  exact buildTokens?_startTag_eq_none (resolve?_eq_none_of_not_nodup htwice) _

/-- What is written of a root with attributes is what is written with them among the declarations. -/
theorem writeNode_declared (declared : WrittenAttributes) (name : XmlName)
    (attributes : XmlAttributes) (text : Text) (children : List XmlNode) (tail : Text) :
    writeNode table (writeAll declared) (.element name attributes text children tail) =
      writeNode table (writeAll (declared ++ writtenAttributes table attributes))
        (.element name [] text children tail) := by
  rw [writeNode, writeNode, writeAll_append, ← writeAttributes_eq]
  simp [writeAttributes]

end

variable {parts : List XmlNode}

/-- The root without its attributes, which are written like declarations. -/
def bareRoot (parts : List XmlNode) : XmlNode := .element (name "project") [] [] parts []

theorem presentable_bareRoot (hparts : ∀ part ∈ parts, part.Presentable) :
    (bareRoot parts).Presentable :=
  .element (.plain (by decide)) ⟨by simp, by simp, List.nodup_nil⟩ (by simp) isContent_nil
    isContent_nil hparts

/-- The prefixes of a descriptor are those of its parts. -/
theorem nodeUris_rootOf (parts : List XmlNode) :
    nodeUris (rootOf parts).indented = allUris parts := by
  rw [XmlNode.indented, nodeUris_indentedAt]
  rfl

theorem nodeUris_bareRoot (parts : List XmlNode) :
    nodeUris (bareRoot parts).indented = allUris parts := by
  rw [XmlNode.indented, nodeUris_indentedAt]
  rfl

/-- **The text of a descriptor**: its root without attributes, with those of the root declared. -/
theorem textOf_eq (hne : parts ≠ []) :
    textOf parts = heading ++ (writeNode (.ofNode (bareRoot parts).indented)
      (writeAll ((Prefixes.ofNode (bareRoot parts).indented).declared ++ rootWritten))
      (bareRoot parts).indented ++ ['\n']) := by
  obtain ⟨first, more, rfl⟩ := List.exists_cons_of_ne_nil hne
  have htable : Prefixes.ofNode (rootOf (first :: more)).indented =
      .ofNode (bareRoot (first :: more)).indented := by
    unfold Prefixes.ofNode
    rw [nodeUris_rootOf, nodeUris_bareRoot]
  rw [textOf, XmlNode.toText, htable, Prefixes.declarations_eq, List.append_assoc]
  congr 2
  exact writeNode_declared _ _ _ _ _ _

/-- The prefixes of the parts that are written, and the parts with them. -/
theorem spelt_bareRoot (hparts : ∀ part ∈ parts, part.Presentable) :
    (Prefixes.ofNode (bareRoot parts).indented).IsNumbered ∧
      Spelt (.ofNode (bareRoot parts).indented) (bareRoot parts).indented :=
  spelt_ofNode ((presentable_bareRoot hparts).indentedAt 0)

/-- **The root of a rendered descriptor** has the attributes of its tag, and the children that are
read from the layout of its parts; the parts must be such as can be written, and none may name the
namespace of schemas. -/
theorem readCharacters?_textOf (hne : parts ≠ []) (hparts : ∀ part ∈ parts, part.Presentable)
    (hxsi : schemaInstanceUri ∉ allUris parts) :
    ∃ text, readCharacters? (textOf parts) =
      some (.element ⟨some pomUri, "project".toList⟩ rootResolved text
        (readBack (some pomUri) (bareRoot parts).indented.unified).children []) := by
  obtain ⟨htable, hspelt⟩ := spelt_bareRoot hparts
  have hkeys : schemaInstanceUri ∉
      (Prefixes.ofNode (bareRoot parts).indented).map Prod.fst := by
    intro hmem
    have huri := Prefixes.mem_nodeUris_of_ofNode hmem
    rw [nodeUris_bareRoot] at huri
    exact hxsi huri
  rw [textOf_eq hne]
  obtain ⟨first, more, rfl⟩ := List.exists_cons_of_ne_nil hne
  exact ⟨_, readCharacters?_root htable hkeys hspelt⟩

/-- **What a rendered descriptor is read as**: as its root. -/
theorem read_textOf (hne : parts ≠ []) (hparts : ∀ part ∈ parts, part.Presentable)
    (hxsi : schemaInstanceUri ∉ allUris parts) :
    ∃ found, readCharacters? (textOf parts) = some found ∧
      ReadAs (some pomUri) (bareRoot parts) found := by
  obtain ⟨text, hfound⟩ := readCharacters?_textOf hne hparts hxsi
  have hreadAs : ReadAs (some pomUri) (bareRoot parts)
      (readBack (some pomUri) (bareRoot parts).indented.unified) :=
    readAs_indentedAt (by simp [bareRoot, XmlNode.name?]) 0
  refine ⟨_, hfound, ?_⟩
  obtain ⟨first, more, rfl⟩ := List.exists_cons_of_ne_nil hne
  -- the root that is read has the attributes of its tag besides
  cases hreadAs with
  | element _ hchildren => exact .element (fun hnil => by cases hnil) hchildren

/-- **A descriptor is no document** if one of its parts names the namespace of schemas. -/
theorem readCharacters?_textOf_of_mem (hne : parts ≠ [])
    (hparts : ∀ part ∈ parts, part.Presentable) (hxsi : schemaInstanceUri ∈ allUris parts) :
    readCharacters? (textOf parts) = none := by
  obtain ⟨htable, hspelt⟩ := spelt_bareRoot hparts
  have hkeys : schemaInstanceUri ∈
      (Prefixes.ofNode (bareRoot parts).indented).map Prod.fst := by
    have huris : ∀ uri ∈ nodeUris (bareRoot parts).indented, IsNamespace uri :=
      fun uri huri => isNamespace_of_mem_nodeUris ((presentable_bareRoot hparts).indentedAt 0) huri
    rw [← nodeUris_bareRoot] at hxsi
    exact (Prefixes.names_ofNode huris hxsi).resolve_left (by decide +kernel)
  rw [textOf_eq hne]
  obtain ⟨first, more, rfl⟩ := List.exists_cons_of_ne_nil hne
  exact readCharacters?_root_of_mem htable hkeys hspelt

/-- **The texts of a document** may stand in it. -/
theorem isContent_of_read_textOf {found part : XmlNode} {t : Text}
    (h : readCharacters? (textOf parts) = some found) (hpart : part ∈ parts)
    (ht : part.HasLeaf t) : IsContent t := by
  have hroot : (rootOf parts).HasLeaf t := .within hpart ht
  have hcontent := isContent_of_readCharacters? h
  rw [textOf, isContent_append, isContent_append] at hcontent
  exact (hroot.indentedAt 0).isContent hcontent.1.2

/-- The declaration begins with no mark. -/
theorem readText?_textOf : readText? (textOf parts) = readCharacters? (textOf parts) := rfl

/-- **The bytes of a descriptor** are read like its text. -/
theorem readBytes?_textOf :
    readBytes? (Utf8.encode (textOf parts)) = .ok (readCharacters? (textOf parts)) := by
  rw [readBytes?, textOf, List.append_assoc, decode?_heading]
  rfl

end Unjar.ProjectDescriptor
