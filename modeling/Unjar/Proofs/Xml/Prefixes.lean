import Unjar.Proofs.Xml.Soundness
import Unjar.Xml.Writer

/-!
Prefixes for the namespaces of a tree.

Every namespace that a tree names gets a prefix of its own: one by custom, or one with the number of
namespaces that have a prefix already.  The prefixes are names, none is that of declarations or that
of XML itself, and no two namespaces share one; so a name is found again under its prefix.

Main definitions:

* `Unjar.Xml.Prefixes.IsSound` — what a table of prefixes is like;
* `Unjar.Xml.Prefixes.IsNumbered` — a table whose prefixes are customary or numbered;
* `Unjar.Xml.Prefixes.Names` — that a table has a prefix for a namespace.

Main results:

* `Unjar.Xml.Prefixes.isNumbered_ofNode`, `Unjar.Xml.Prefixes.names_ofNode` — **the prefixes of a tree**;
* `Unjar.Xml.Prefixes.IsSound.prefixOf_injective` — no two namespaces share a prefix.
-/

set_option autoImplicit false

namespace Unjar.Xml

namespace Prefixes

/-- A prefix with a number. -/
def numbered (k : Nat) : Text := "ns".toList ++ Text.ofNat k

theorem isName_numbered (k : Nat) : isName (numbered k) = true := by
  have hdigits : ∀ c ∈ Text.ofNat k, isNameCharacter c = true := by
    intro c hc
    have hdigit : c.isDigit = true := Nat.isDigit_of_mem_toDigits (by decide) (by decide) hc
    simp [isNameCharacter, Char.isAlphanum, hdigit]
  refine isName_iff.mpr ⟨⟨'n', rfl, by decide⟩, ?_⟩
  rw [numbered, List.forall_mem_append]
  exact ⟨List.all_eq_true.mp (by decide), hdigits⟩

theorem numbered_injective {m n : Nat} (h : numbered m = numbered n) : m = n :=
  Text.ofNat_injective (List.append_cancel_left h)

/-- **A table of prefixes**: namespaces that names may be in, each with a prefix of its own that
means nothing yet. -/
structure IsSound (table : Prefixes) : Prop where
  keys : (table.map Prod.fst).Nodup
  labels : (table.map Prod.snd).Nodup
  namespaces : ∀ uri label, (uri, label) ∈ table → IsNamespace uri ∧ uri ≠ xmlUri
  isName : ∀ {uri label}, (uri, label) ∈ table →
    Xml.isName label = true ∧ label ≠ xmlPrefix ∧ label ≠ Scope.declarationName

/-- **A table as trees have it**: each namespace has its prefix by custom or one of the numbers
below the size of the table. -/
structure IsNumbered (table : Prefixes) : Prop extends table.IsSound where
  spelling : ∀ uri label, (uri, label) ∈ table → customaryPrefixes.lookup uri = some label ∨
    customaryPrefixes.lookup uri = none ∧ ∃ k < table.length, label = numbered k

theorem customary_label {uri label : Text} (h : customaryPrefixes.lookup uri = some label) :
    isName label = true ∧ label ≠ xmlPrefix ∧ label ≠ Scope.declarationName ∧
      ∀ k, label ≠ numbered k := by
  have hall : ∀ entry ∈ customaryPrefixes, isName entry.2 = true ∧ entry.2 ≠ xmlPrefix ∧
      entry.2 ≠ Scope.declarationName ∧ entry.2.take 2 ≠ "ns".toList := by decide
  obtain ⟨hname, hxml, hdeclaration, hns⟩ := hall _ (mem_of_lookup_eq_some h)
  refine ⟨hname, hxml, hdeclaration, ?_⟩
  rintro k rfl
  exact hns rfl

theorem customary_injective {uri uri' label : Text}
    (h : customaryPrefixes.lookup uri = some label)
    (h' : customaryPrefixes.lookup uri' = some label) : uri = uri' := by
  have hall : ∀ entry ∈ customaryPrefixes, ∀ other ∈ customaryPrefixes, entry.2 = other.2 →
      entry.1 = other.1 := by decide
  exact hall _ (mem_of_lookup_eq_some h) _ (mem_of_lookup_eq_some h') rfl

section

variable {table : Prefixes} {uri label : Text}

theorem isNumbered_nil : IsNumbered [] where
  keys := List.nodup_nil
  labels := List.nodup_nil
  namespaces := fun _ _ h => absurd h List.not_mem_nil
  isName := fun h => absurd h List.not_mem_nil
  spelling := fun _ _ h => absurd h List.not_mem_nil

/-- A prefix that the next namespace gets is customary or has the size of the table as its number. -/
theorem spelling_of_eq (h : label = (customaryPrefixes.lookup uri).getD (numbered table.length)) :
    customaryPrefixes.lookup uri = some label ∨
      customaryPrefixes.lookup uri = none ∧ label = numbered table.length := by
  rw [h]
  cases customaryPrefixes.lookup uri <;> simp

theorem IsNumbered.fresh (h : table.IsNumbered) (huri : uri ∉ table.map Prod.fst)
    (hlabel : label = (customaryPrefixes.lookup uri).getD (numbered table.length)) :
    label ∉ table.map Prod.snd := by
  intro hmem
  obtain ⟨⟨uri', label'⟩, hentry, heq⟩ := List.mem_map.mp hmem
  dsimp only at heq
  subst heq
  rcases h.spelling uri' label' hentry with hold | ⟨-, k, hk, hold⟩
  · rcases spelling_of_eq hlabel with hnew | ⟨-, hnew⟩
    · rw [customary_injective hnew hold] at huri
      exact huri (List.mem_map.mpr ⟨_, hentry, rfl⟩)
    · exact (customary_label hold).2.2.2 _ hnew
  · rcases spelling_of_eq hlabel with hnew | ⟨-, hnew⟩
    · exact (customary_label hnew).2.2.2 _ hold
    · exact absurd (numbered_injective (hold.symm.trans hnew)) (Nat.ne_of_lt hk)

/-- A prefix by custom or with a number is a name that means nothing yet. -/
theorem isName_of_spelling {size : Nat}
    (h : label = (customaryPrefixes.lookup uri).getD (numbered size)) :
    isName label = true ∧ label ≠ xmlPrefix ∧ label ≠ Scope.declarationName := by
  cases hcustomary : customaryPrefixes.lookup uri with
  | some given =>
      rw [hcustomary, Option.getD_some] at h
      obtain ⟨hname, hxml, hdeclaration, -⟩ := customary_label hcustomary
      rw [h]
      exact ⟨hname, hxml, hdeclaration⟩
  | none =>
      rw [hcustomary, Option.getD_none] at h
      rw [h]
      refine ⟨isName_numbered size, ?_, ?_⟩
      · intro heq
        cases congrArg (List.head? ·) heq
      · intro heq
        cases congrArg (List.head? ·) heq

/-- **One more namespace** gets a prefix that none has yet. -/
theorem IsNumbered.name (h : table.IsNumbered) (huri : IsNamespace uri) :
    (table.name uri).IsNumbered := by
  unfold Prefixes.name
  split
  · exact h
  · next hxml =>
    by_cases hmem : uri ∈ table.map Prod.fst
    · rw [OrderedMap.putNew_of_mem hmem]
      exact h
    · rw [OrderedMap.putNew_of_not_mem hmem]
      obtain ⟨label, hlabel⟩ : ∃ label,
          label = (customaryPrefixes.lookup uri).getD (numbered table.length) := ⟨_, rfl⟩
      change IsNumbered (table ++ [(uri, (customaryPrefixes.lookup uri).getD (numbered table.length))])
      rw [← hlabel]
      have hfresh := h.fresh hmem hlabel
      refine ⟨⟨?_, ?_, ?_, ?_⟩, ?_⟩
      · rw [List.map_append]
        refine List.nodup_append.mpr ⟨h.keys, List.nodup_singleton _, ?_⟩
        rintro a ha b hb rfl
        rw [List.mem_singleton.mp hb] at ha
        exact hmem ha
      · rw [List.map_append]
        refine List.nodup_append.mpr ⟨h.labels, List.nodup_singleton _, ?_⟩
        rintro a ha b hb rfl
        rw [List.mem_singleton.mp hb] at ha
        exact hfresh ha
      · intro uri' label' hentry
        rcases List.mem_append.mp hentry with hentry | hentry
        · exact h.namespaces uri' label' hentry
        · cases List.mem_singleton.mp hentry
          exact ⟨huri, by simpa using hxml⟩
      · intro uri' label' hentry
        rcases List.mem_append.mp hentry with hentry | hentry
        · exact h.isName hentry
        · cases List.mem_singleton.mp hentry
          exact isName_of_spelling hlabel
      · intro uri' label' hentry
        rw [List.length_append, List.length_singleton]
        rcases List.mem_append.mp hentry with hentry | hentry
        · rcases h.spelling uri' label' hentry with hold | ⟨hnone, k, hk, hold⟩
          · exact .inl hold
          · exact .inr ⟨hnone, k, Nat.lt_succ_of_lt hk, hold⟩
        · cases List.mem_singleton.mp hentry
          rcases spelling_of_eq hlabel with hnew | ⟨hnone, hnew⟩
          · exact .inl hnew
          · exact .inr ⟨hnone, table.length, Nat.lt_succ_self _, hnew⟩

/-! ### Names under prefixes -/

/-- **A table has a prefix for a namespace.** -/
def Names (table : Prefixes) (uri : Text) : Prop := uri = xmlUri ∨ uri ∈ table.map Prod.fst

theorem names_name_self (table : Prefixes) (uri : Text) : (table.name uri).Names uri := by
  unfold Prefixes.name
  split
  · next hxml => exact .inl (by simpa using hxml)
  · by_cases hmem : uri ∈ table.map Prod.fst
    · rw [OrderedMap.putNew_of_mem hmem]
      exact .inr hmem
    · rw [OrderedMap.putNew_of_not_mem hmem]
      exact .inr (by simp)

theorem Names.name {uri' : Text} (h : table.Names uri) : (table.name uri').Names uri := by
  unfold Prefixes.name
  split
  · exact h
  · by_cases hmem : uri' ∈ table.map Prod.fst
    · rw [OrderedMap.putNew_of_mem hmem]
      exact h
    · rw [OrderedMap.putNew_of_not_mem hmem]
      rcases h with hxml | h
      · exact .inl hxml
      · exact .inr (by simp only [List.map_append, List.mem_append]; exact .inl h)

theorem numbered_of_foldl_name {uris : List Text} (h : table.IsNumbered)
    (huris : ∀ uri ∈ uris, IsNamespace uri) :
    (uris.foldl Prefixes.name table).IsNumbered ∧
      ∀ uri, table.Names uri ∨ uri ∈ uris → Names (uris.foldl Prefixes.name table) uri := by
  induction uris generalizing table with
  | nil => exact ⟨h, fun uri huri => huri.resolve_right List.not_mem_nil⟩
  | cons first uris ih =>
      rw [List.forall_mem_cons] at huris
      obtain ⟨hsound, hnames⟩ := ih (h.name huris.1) huris.2
      refine ⟨hsound, fun uri huri => hnames uri ?_⟩
      rcases huri with huri | huri
      · exact .inl huri.name
      · rcases List.mem_cons.mp huri with rfl | huri
        · exact .inl (names_name_self table uri)
        · exact .inr huri

/-- **The prefixes of a tree** whose names are in namespaces. -/
theorem isNumbered_ofNode {node : XmlNode} (h : ∀ uri ∈ nodeUris node, IsNamespace uri) :
    (ofNode node).IsNumbered :=
  (numbered_of_foldl_name isNumbered_nil h).1

theorem names_ofNode {node : XmlNode} (h : ∀ uri ∈ nodeUris node, IsNamespace uri)
    (huri : uri ∈ nodeUris node) : (ofNode node).Names uri :=
  (numbered_of_foldl_name isNumbered_nil h).2 uri (.inr huri)

/-- Only namespaces that a tree names have a prefix. -/
theorem mem_of_mem_foldl_name {uris : List Text}
    (h : uri ∈ (uris.foldl Prefixes.name table).map Prod.fst) :
    uri ∈ table.map Prod.fst ∨ uri ∈ uris := by
  induction uris generalizing table with
  | nil => exact .inl h
  | cons first uris ih =>
      rcases ih h with h | h
      · unfold Prefixes.name at h
        split at h
        · exact .inl h
        · obtain ⟨entry, hentry, rfl⟩ := List.mem_map.mp h
          rcases OrderedMap.mem_putNew hentry with hentry | rfl
          · exact .inl (List.mem_map_of_mem hentry)
          · exact .inr List.mem_cons_self
      · exact .inr (List.mem_cons_of_mem _ h)

theorem mem_nodeUris_of_ofNode {node : XmlNode} (h : uri ∈ (ofNode node).map Prod.fst) :
    uri ∈ nodeUris node :=
  (mem_of_mem_foldl_name h).resolve_left List.not_mem_nil

theorem IsSound.prefixOf_eq (h : table.IsSound) (hentry : (uri, label) ∈ table) :
    table.prefixOf uri = label := by
  rw [prefixOf, OrderedMap.get?_of_mem h.keys hentry]
  rfl

theorem IsSound.prefixOf_xmlUri (h : table.IsSound) : table.prefixOf xmlUri = xmlPrefix := by
  have hnone : OrderedMap.get? table xmlUri = none := by
    rw [OrderedMap.get?_eq_none]
    intro hmem
    obtain ⟨entry, hentry, hxml⟩ := List.mem_map.mp hmem
    exact (h.namespaces entry.1 entry.2 hentry).2 hxml
  rw [prefixOf, hnone]
  rfl

/-- The prefix of a namespace is that of XML, or it stands in the table. -/
theorem IsSound.cases (h : table.IsSound) (huri : table.Names uri) :
    (uri = xmlUri ∧ table.prefixOf uri = xmlPrefix) ∨ (uri, table.prefixOf uri) ∈ table := by
  rcases huri with rfl | huri
  · exact .inl ⟨rfl, h.prefixOf_xmlUri⟩
  · obtain ⟨entry, hentry, rfl⟩ := List.mem_map.mp huri
    exact .inr (by rwa [h.prefixOf_eq hentry])

theorem IsSound.isName_prefixOf (h : table.IsSound) (huri : table.Names uri) :
    Xml.isName (table.prefixOf uri) = true ∧ table.prefixOf uri ≠ Scope.declarationName := by
  rcases h.cases huri with ⟨-, hlabel⟩ | hentry
  · rw [hlabel]
    decide
  · exact ⟨(h.isName hentry).1, (h.isName hentry).2.2⟩

/-- A prefix by custom is not used where its namespace is not named. -/
theorem IsNumbered.prefixOf_ne (h : table.IsNumbered)
    (hlabel : customaryPrefixes.lookup uri = some label)
    (huri : uri ∉ table.map Prod.fst) {other : Text} (hother : table.Names other) :
    table.prefixOf other ≠ label := by
  rintro rfl
  rcases h.cases hother with ⟨-, hxml⟩ | hentry
  · exact (customary_label hlabel).2.1 hxml
  · rcases h.spelling other _ hentry with hcustomary | ⟨-, k, -, hnumbered⟩
    · rw [customary_injective hlabel hcustomary] at huri
      exact huri (List.mem_map_of_mem (f := Prod.fst) hentry)
    · exact (customary_label hlabel).2.2.2 k hnumbered

/-- **No two namespaces share a prefix.** -/
theorem IsSound.prefixOf_injective (h : table.IsSound) {uri' : Text} (huri : table.Names uri)
    (huri' : table.Names uri') (heq : table.prefixOf uri = table.prefixOf uri') : uri = uri' := by
  rcases h.cases huri with ⟨rfl, hlabel⟩ | hentry
  · rcases h.cases huri' with ⟨rfl, -⟩ | hentry'
    · rfl
    · exact absurd (heq.symm.trans hlabel) (h.isName hentry').2.1
  · rcases h.cases huri' with ⟨rfl, hlabel'⟩ | hentry'
    · exact absurd (heq.trans hlabel') (h.isName hentry).2.1
    · rw [← heq] at hentry'
      exact (List.inj_on_of_nodup_map h.labels hentry hentry' rfl) |> congrArg Prod.fst

end

end Prefixes

end Unjar.Xml
