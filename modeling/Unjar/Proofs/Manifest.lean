import Mathlib.Data.Bool.AllAny
import Unjar.Archive
import Unjar.Proofs.LenientUtf8
import Unjar.Proofs.OrderedMap

/-!
Manifests read back.

An attribute of a manifest is written as its name, a colon, a space and its value.  The bytes of the
value may be spread over lines, each but the first behind one space.  A manifest is read leniently
before its lines are put together again, so a line holds what its own piece of the value is read as.

Three kinds of manifest are not read as they were written, and `classPath_differs` has one of each:
where a line ends inside a character of the class path, where a value holds a character that ends
lines but is neither a line feed nor a carriage return, and where a line holds nothing but blanks of
a value, which is taken for the end of the section.

Main definitions:

* `Unjar.LineEnd`, `Unjar.ByteLine` — how lines end, and lines as bytes;
* `Unjar.Manifest.WrittenAttribute`, `Unjar.Manifest.WrittenManifest` — what is written;
* `Unjar.Manifest.WrittenManifest.classPath` — the words that ought to be found.

Main results:

* `Unjar.Text.fields_eq_filter` — words are the pieces between blanks that are not empty;
* `Unjar.Text.lines_append` — a line is read back, whatever it ends with;
* `Unjar.Manifest.Section.addAll_texts` — an attribute is read from its lines;
* `Unjar.Manifest.Section.addAll_attributes` — so is a whole section;
* `Unjar.ArchiveReader.manifestClassPath_of_written` — **the class path is read back**.
-/

set_option autoImplicit false

namespace Unjar

namespace Text

/-! ### Words -/

/-- Words are the pieces between blanks, without the empty ones. -/
theorem fields_eq_filter (t : Text) : fields t = (t.splitOnP isBlank).filter (· ≠ []) := by
  have hsplit (r : Text) : ∃ first others, r.splitOnP isBlank = first :: others :=
    List.exists_cons_of_ne_nil (List.splitOnP_ne_nil isBlank r)
  fun_induction fields t with
  | case1 => rfl
  | case2 c r hc ih => simp [List.splitOnP_cons_eq_if_modifyHead, hc, ih]
  | case3 c hc => simp [List.splitOnP_cons_eq_if_modifyHead, hc]
  | case4 c hc d r hd ih =>
      rw [ih]
      simp [List.splitOnP_cons_eq_if_modifyHead, hc, hd]
  | case5 c hc d r hd hnone ih =>
      -- the text begins with a word
      obtain ⟨first, others, hr⟩ := hsplit r
      rw [hnone] at ih
      simp [List.splitOnP_cons_eq_if_modifyHead, hd, hr] at ih
  | case6 c hc d r hd word words hwords ih =>
      obtain ⟨first, others, hr⟩ := hsplit r
      rw [hwords] at ih
      simp [List.splitOnP_cons_eq_if_modifyHead, hd, hr] at ih
      obtain ⟨rfl, rfl⟩ := ih
      rw [hwords]
      simp [List.splitOnP_cons_eq_if_modifyHead, hc, hd, hr]

theorem dropWhile_eq_self {t : Text} (h : ∀ c ∈ t, isBlank c = false) :
    t.dropWhile isBlank = t := by
  cases t with
  | nil => rfl
  | cons c t => simp [h c List.mem_cons_self]

theorem strip_eq_self {t : Text} (h : ∀ c ∈ t, isBlank c = false) : strip t = t := by
  have hreverse : ∀ c ∈ t.reverse, isBlank c = false := fun c hc => h c (List.mem_reverse.mp hc)
  rw [strip, stripStart, dropWhile_eq_self h, stripEnd, dropWhile_eq_self hreverse,
    List.reverse_reverse]

end Text

/-! ### Lines -/

/-- How a line ends. -/
inductive LineEnd where
  | lineFeed
  | carriageReturn
  /-- A carriage return with a line feed. -/
  | both
deriving DecidableEq

def LineEnd.text : LineEnd → Text
  | lineFeed => ['\n']
  | carriageReturn => ['\r']
  | both => ['\r', '\n']

namespace Text

theorem isBlank_of_isLineBreak {c : Char} (h : isLineBreak c = true) : isBlank c = true := by
  simp only [isLineBreak, isBlank, Bool.or_eq_true, Bool.and_eq_true, decide_eq_true_eq,
    beq_iff_eq] at h ⊢
  omega

/-- A line is read back, unless it ends with a carriage return and a line feed follows. -/
theorem lines_append (line : Text) {r : Text} (hline : ∀ c ∈ line, isLineBreak c = false)
    (e : LineEnd) (hr : e = .carriageReturn → r.head? ≠ some '\n') :
    lines (line ++ (e.text ++ r)) = line :: lines r := by
  induction line with
  | nil =>
      cases e with
      | lineFeed => rfl
      | both => rfl
      | carriageReturn =>
          cases r with
          | nil => rfl
          | cons d r =>
              have hd : d ≠ '\n' := fun h => hr rfl (by rw [h]; rfl)
              show lines ('\r' :: d :: r) = [] :: lines (d :: r)
              rw [lines]
              · rfl
              · rintro r' - h
                cases h
                exact hd rfl
  | cons c line ih =>
      rw [List.forall_mem_cons] at hline
      obtain ⟨hc, hline⟩ := hline
      have hne : c ≠ '\r' := by
        rintro rfl
        exact absurd hc (by decide)
      rw [List.cons_append, lines, ih hline, if_neg (by rw [hc]; exact Bool.false_ne_true)]
      intro r' h
      exact absurd h hne

/-- An empty line is read, whatever stands behind it. -/
theorem exists_lines_append (e : LineEnd) (r : Text) :
    ∃ further, lines (e.text ++ r) = [] :: further := by
  cases e with
  | lineFeed => exact ⟨lines r, rfl⟩
  | both => exact ⟨lines r, rfl⟩
  | carriageReturn =>
      by_cases hr : r.head? = some '\n'
      · obtain ⟨r, rfl⟩ := List.head?_eq_some_iff.mp hr
        exact ⟨lines r, rfl⟩
      · exact ⟨lines r, lines_append [] (List.forall_mem_nil _) .carriageReturn fun _ => hr⟩

end Text

/-- A line of bytes. -/
structure ByteLine where
  /-- The bytes in front of its end. -/
  bytes : Bytes
  lineEnd : LineEnd

namespace ByteLine

/-- What the bytes of a line are read as. -/
def text (l : ByteLine) : Text := Utf8.decodeLossy l.bytes

/-- The bytes of lines. -/
def written (lines : List ByteLine) : Bytes :=
  lines.flatMap fun l => l.bytes ++ Utf8.encode l.lineEnd.text

theorem decodeLossy_written (lines : List ByteLine) (r : Bytes) :
    Utf8.decodeLossy (written lines ++ r) =
      (lines.flatMap fun l => l.text ++ l.lineEnd.text) ++ Utf8.decodeLossy r := by
  induction lines with
  | nil => rfl
  | cons l lines ih =>
      have hend : l.lineEnd.text ≠ [] ∧ ∀ c ∈ l.lineEnd.text, c.toNat < 0x80 := by
        cases l.lineEnd <;> exact ⟨by decide, List.all_iff_forall_prop.mp (by decide)⟩
      rw [written, List.flatMap_cons, List.append_assoc, List.append_assoc,
        Utf8.decodeLossy_append_ascii _ _ hend.1 hend.2, List.flatMap_cons, List.append_assoc,
        List.append_assoc]
      exact congrArg _ (congrArg _ ih)

/-- Lines are read back when they hold something, and no line breaks. -/
theorem lines_texts {lines : List ByteLine} {r : Text}
    (hlines : ∀ l ∈ lines, l.text ≠ [] ∧ ∀ c ∈ l.text, Text.isLineBreak c = false)
    (hlast : ∀ l ∈ lines.getLast?, l.lineEnd = .carriageReturn → r.head? ≠ some '\n') :
    Text.lines ((lines.flatMap fun l => l.text ++ l.lineEnd.text) ++ r) =
      lines.map text ++ Text.lines r := by
  induction lines with
  | nil => rfl
  | cons l lines ih =>
      rw [List.forall_mem_cons] at hlines
      obtain ⟨⟨-, hl⟩, hlines⟩ := hlines
      rw [List.flatMap_cons, List.append_assoc, List.append_assoc, Text.lines_append l.text hl]
      · rw [ih hlines, List.map_cons, List.cons_append]
        intro l' hl'
        refine hlast l' ?_
        cases lines with
        | nil => cases hl'
        | cons _ _ => exact hl'
      · intro hend
        cases lines with
        | nil => exact hlast l rfl hend
        | cons next lines =>
            -- the next line begins with a character that is no line break
            obtain ⟨⟨hne, hnext⟩, -⟩ := List.forall_mem_cons.mp hlines
            obtain ⟨c, t, hct⟩ := List.exists_cons_of_ne_nil hne
            rw [List.flatMap_cons, hct]
            rintro h
            cases h
            exact absurd (hnext '\n' (by rw [hct]; exact List.mem_cons_self)) (by decide)

end ByteLine

namespace Manifest

open Text (isBlank isLineBreak)

/-! ### Attributes -/

/-- **An attribute as it is written.**  Its value is any text; where the lines end that its bytes
are spread over does not matter. -/
structure WrittenAttribute where
  name : Text
  value : Text
  /-- The piece of the value behind the name. -/
  first : ByteLine
  /-- The pieces of the value on lines of their own. -/
  others : List ByteLine
  name_ne_nil : name ≠ []
  /-- A name holds neither blanks nor colons. -/
  name_plain : ∀ c ∈ name, isBlank c = false ∧ c ≠ ':'
  pieces : first.bytes ++ (others.map ByteLine.bytes).flatten = Utf8.encode value

namespace WrittenAttribute

/-- The lines of an attribute. -/
def lines (a : WrittenAttribute) : List ByteLine :=
  ⟨Utf8.encode (a.name ++ [':', ' ']) ++ a.first.bytes, a.first.lineEnd⟩ ::
    a.others.map fun l => ⟨Utf8.encode [' '] ++ l.bytes, l.lineEnd⟩

/-- What the lines of an attribute are read as. -/
def texts (a : WrittenAttribute) : List Text :=
  (a.name ++ ([':', ' '] ++ a.first.text)) :: a.others.map fun l => ' ' :: l.text

/-- What its value is read as. -/
def readValue (a : WrittenAttribute) : Text := a.first.text ++ (a.others.map ByteLine.text).flatten

/-- Whether an attribute lists other archives. -/
def IsClassPath (a : WrittenAttribute) : Prop := Text.toLower a.name = "class-path".toList

instance (a : WrittenAttribute) : Decidable a.IsClassPath := inferInstanceAs (Decidable (_ = _))

variable {a : WrittenAttribute}

theorem map_text_lines (a : WrittenAttribute) : a.lines.map ByteLine.text = a.texts := by
  have hfirst : ByteLine.text ⟨Utf8.encode (a.name ++ [':', ' ']) ++ a.first.bytes,
      a.first.lineEnd⟩ = a.name ++ ([':', ' '] ++ a.first.text) := by
    rw [ByteLine.text, Utf8.decodeLossy_encode_append, List.append_assoc]
    rfl
  rw [lines, List.map_cons, hfirst, List.map_map, texts]
  refine congrArg _ (List.map_congr_left fun l _ => ?_)
  exact Utf8.decodeLossy_encode_append [' '] l.bytes

/-- The bytes of a piece stand in those of the value. -/
theorem infix_of_mem {l : ByteLine} (hl : l ∈ a.first :: a.others) :
    l.bytes <:+: Utf8.encode a.value := by
  rw [← a.pieces]
  rcases List.mem_cons.mp hl with rfl | hl
  · exact (List.prefix_append _ _).isInfix
  · exact (List.infix_of_mem_flatten (List.mem_map_of_mem hl)).trans
      (List.suffix_append _ _).isInfix

/-- A piece brings no line break into its line. -/
theorem isLineBreak_of_mem (hvalue : ∀ c ∈ a.value, isLineBreak c = false) {l : ByteLine}
    (hl : l ∈ a.first :: a.others) {c : Char} (hc : c ∈ l.text) : isLineBreak c = false := by
  rcases Utf8.mem_of_mem_decodeLossy (infix_of_mem hl) hc with hc | rfl
  · exact hvalue c hc
  · decide

/-- Every line of an attribute holds something, and no line breaks. -/
theorem texts_plain (hvalue : ∀ c ∈ a.value, isLineBreak c = false) :
    ∀ t ∈ a.texts, t ≠ [] ∧ ∀ c ∈ t, isLineBreak c = false := by
  intro t ht
  rcases List.mem_cons.mp ht with rfl | ht
  · refine ⟨by simp, fun c hc => ?_⟩
    rw [List.mem_append, List.mem_append] at hc
    rcases hc with hc | hc | hc
    · refine Bool.eq_false_iff.mpr fun hbreak => ?_
      exact Bool.false_ne_true
        ((a.name_plain c hc).1.symm.trans (Text.isBlank_of_isLineBreak hbreak))
    · rcases List.mem_pair.mp hc with rfl | rfl <;> rfl
    · exact isLineBreak_of_mem hvalue List.mem_cons_self hc
  · obtain ⟨l, hl, rfl⟩ := List.mem_map.mp ht
    refine ⟨by simp, fun c hc => ?_⟩
    rcases List.mem_cons.mp hc with rfl | hc
    · decide
    · exact isLineBreak_of_mem hvalue (List.mem_cons_of_mem _ hl) hc

/-- A value whose pieces are whole characters is read as it is. -/
theorem readValue_eq (h : ∀ l ∈ a.first :: a.others, ∃ t, l.bytes = Utf8.encode t) :
    a.readValue = a.value := by
  have hpiece {l : ByteLine} (hl : l ∈ a.first :: a.others) : l.bytes = Utf8.encode l.text := by
    obtain ⟨t, ht⟩ := h l hl
    rw [ByteLine.text, ht, Utf8.decodeLossy_encode]
  have hothers : (a.others.map ByteLine.bytes).flatten =
      Utf8.encode (a.others.map ByteLine.text).flatten := by
    rw [List.map_congr_left fun l hl => hpiece (List.mem_cons_of_mem _ hl), Utf8.encode_flatten,
      List.map_map]
    rfl
  have hvalue := a.pieces
  rw [hpiece List.mem_cons_self, hothers, ← Utf8.encode_append] at hvalue
  have hread := congrArg Utf8.decodeLossy hvalue
  rwa [Utf8.decodeLossy_encode, Utf8.decodeLossy_encode] at hread

end WrittenAttribute

/-! ### Sections -/

namespace Section

variable {s : Section} {m : OrderedMap Text Text} {name : Text}

/-- Lines that continue the value in front of them. -/
theorem addAll_others (hname : name ∉ m.map Prod.fst) (value : Text) (others more : List Text)
    (hblank : ∀ t ∈ others, Text.isAllBlank t = false) :
    addAll ⟨m ++ [(name, value)], some name⟩ (others.map (fun t => ' ' :: t) ++ more) =
      addAll ⟨m ++ [(name, value ++ others.flatten)], some name⟩ more := by
  induction others generalizing value with
  | nil => simp
  | cons t others ih =>
      rw [List.forall_mem_cons] at hblank
      obtain ⟨ht, hothers⟩ := hblank
      have hline : ¬Text.isAllBlank (' ' :: t) = true := by
        rw [Text.isAllBlank, List.all_cons]
        exact fun h => Bool.false_ne_true (ht.symm.trans (Bool.and_eq_true_iff.mp h).2)
      have hadd : add ⟨m ++ [(name, value)], some name⟩ (' ' :: t) =
          ⟨m ++ [(name, value ++ t)], some name⟩ := by
        simp only [add]
        rw [OrderedMap.get?_concat_of_not_mem hname, Option.getD_some,
          OrderedMap.put_concat_of_not_mem hname]
      rw [List.map_cons, List.cons_append, addAll, if_neg hline, hadd, ih _ hothers,
        List.flatten_cons, List.append_assoc]

/-- **An attribute is read from its lines.** -/
theorem addAll_texts (a : WrittenAttribute) (more : List Text)
    (hname : a.name ∉ s.attributes.map Prod.fst)
    (hblank : ∀ l ∈ a.others, Text.isAllBlank l.text = false) :
    s.addAll (a.texts ++ more) =
      addAll ⟨s.attributes ++ [(a.name, a.readValue)], some a.name⟩ more := by
  obtain ⟨c, t, hct⟩ := List.exists_cons_of_ne_nil a.name_ne_nil
  have hc : isBlank c = false := (a.name_plain c (by rw [hct]; exact List.mem_cons_self)).1
  have hline : ¬Text.isAllBlank (a.name ++ ([':', ' '] ++ a.first.text)) = true := by
    rw [hct, List.cons_append, Text.isAllBlank, List.all_cons, hc]
    exact Bool.false_ne_true
  have hbegin : s.add (a.name ++ ([':', ' '] ++ a.first.text)) =
      s.begin (a.name ++ ([':', ' '] ++ a.first.text)) := by
    unfold add
    split
    · next hline _ =>
      rw [hct] at hline
      cases hline
      exact absurd hc (by decide)
    · rfl
  have hcut : cutAtFirst ':' (a.name ++ ([':', ' '] ++ a.first.text)) =
      some (a.name, ' ' :: a.first.text) :=
    cutAtFirst_append _ fun h => (a.name_plain ':' h).2 rfl
  have hstrip : Text.strip a.name = a.name :=
    Text.strip_eq_self fun c hc => (a.name_plain c hc).1
  rw [WrittenAttribute.texts, List.cons_append, addAll, if_neg hline, hbegin, begin, hcut]
  dsimp only
  rw [hstrip, valueOf, OrderedMap.put_of_not_mem hname]
  have hothers := addAll_others hname a.first.text (a.others.map ByteLine.text) more
    (List.forall_mem_map.mpr hblank)
  rwa [List.map_map] at hothers

/-- **A section is read** up to the empty line behind it. -/
theorem addAll_attributes (attributes : List WrittenAttribute) (further : List Text)
    (hnames : (s.attributes.map Prod.fst ++ attributes.map WrittenAttribute.name).Nodup)
    (hsome : s.attributes ≠ [] ∨ attributes ≠ [])
    (hblank : ∀ a ∈ attributes, ∀ l ∈ a.others, Text.isAllBlank l.text = false) :
    s.addAll (attributes.flatMap WrittenAttribute.texts ++ [] :: further) =
      s.attributes ++ attributes.map fun a => (a.name, a.readValue) := by
  induction attributes generalizing s with
  | nil =>
      have hne : ¬s.attributes.isEmpty = true := by
        rw [List.isEmpty_iff]
        exact hsome.resolve_right (not_not_intro rfl)
      have hempty : Text.isAllBlank [] = true := rfl
      rw [List.flatMap_nil, List.nil_append, addAll, if_pos hempty, if_neg hne]
      exact (List.append_nil _).symm
  | cons a attributes ih =>
      rw [List.forall_mem_cons] at hblank
      obtain ⟨ha, hattributes⟩ := hblank
      have hname : a.name ∉ s.attributes.map Prod.fst := fun h =>
        List.disjoint_of_nodup_append hnames h List.mem_cons_self
      rw [List.flatMap_cons, List.append_assoc, addAll_texts a _ hname ha, ih]
      · simp
      · simpa using hnames
      · simp
      · exact hattributes

end Section

/-- **A manifest as it is written**: attributes whose names differ in more than their case, an empty
line and anything behind it. -/
structure WrittenManifest where
  attributes : List WrittenAttribute
  /-- The end of the empty line. -/
  empty : LineEnd
  /-- The bytes behind the empty line. -/
  further : Bytes
  attributes_ne_nil : attributes ≠ []
  names_nodup : (attributes.map fun a => Text.toLower a.name).Nodup
  /-- A line feed behind a carriage return would be no empty line. -/
  empty_apart : ∀ l ∈ (attributes.flatMap WrittenAttribute.lines).getLast?,
    l.lineEnd = .carriageReturn → empty ≠ .lineFeed

namespace WrittenManifest

/-- The bytes of a manifest. -/
def bytes (m : WrittenManifest) : Bytes :=
  ByteLine.written (m.attributes.flatMap WrittenAttribute.lines) ++
    (Utf8.encode m.empty.text ++ m.further)

/-- The words of the attribute that lists other archives, as they were written. -/
def classPath (m : WrittenManifest) : List Text :=
  match m.attributes.find? fun a => a.IsClassPath with
  | some a => (a.value.splitOnP isBlank).filter (· ≠ [])
  | none => []

variable {m : WrittenManifest}

theorem lines_decodeLossy (hvalues : ∀ a ∈ m.attributes, ∀ c ∈ a.value, isLineBreak c = false) :
    ∃ further, Text.lines (Utf8.decodeLossy m.bytes) =
      m.attributes.flatMap WrittenAttribute.texts ++ [] :: further := by
  have htexts : (m.attributes.flatMap WrittenAttribute.lines).map ByteLine.text =
      m.attributes.flatMap WrittenAttribute.texts := by
    rw [List.map_flatMap]
    exact List.flatMap_congr fun a _ => a.map_text_lines
  have hplain : ∀ l ∈ m.attributes.flatMap WrittenAttribute.lines,
      l.text ≠ [] ∧ ∀ c ∈ l.text, isLineBreak c = false := by
    intro l hl
    have ht := htexts ▸ List.mem_map_of_mem (f := ByteLine.text) hl
    obtain ⟨a, ha, ht⟩ := List.mem_flatMap.mp ht
    exact WrittenAttribute.texts_plain (hvalues a ha) l.text ht
  obtain ⟨further, hfurther⟩ := Text.exists_lines_append m.empty (Utf8.decodeLossy m.further)
  refine ⟨further, ?_⟩
  rw [bytes, ByteLine.decodeLossy_written, Utf8.decodeLossy_encode_append,
    ByteLine.lines_texts hplain, htexts, hfurther]
  intro l hl hend hhead
  refine m.empty_apart l hl hend ?_
  revert hhead
  cases m.empty <;> simp [LineEnd.text]

/-- **Every attribute is read**, its value as its pieces are. -/
theorem mainAttributes_eq (hvalues : ∀ a ∈ m.attributes, ∀ c ∈ a.value, isLineBreak c = false)
    (hblank : ∀ a ∈ m.attributes, ∀ l ∈ a.others, Text.isAllBlank l.text = false) :
    mainAttributes (Utf8.decodeLossy m.bytes) =
      m.attributes.map fun a => (a.name, a.readValue) := by
  obtain ⟨further, hlines⟩ := lines_decodeLossy hvalues
  have hnames : (m.attributes.map WrittenAttribute.name).Nodup := by
    refine List.Nodup.of_map Text.toLower ?_
    rw [List.map_map]
    exact m.names_nodup
  rw [mainAttributes, hlines]
  exact Section.addAll_attributes (s := ⟨[], none⟩) m.attributes further hnames
    (.inr m.attributes_ne_nil) hblank

end WrittenManifest

end Manifest

open Manifest

/-- **The class path is read back** from a manifest, whatever stands behind its main section, if no
value breaks lines, no line holds blanks of a value only, and the lines of the class path hold whole
characters.  The lines of the other attributes may end inside characters. -/
theorem ArchiveReader.manifestClassPath_of_written {r : ArchiveReader} {content : ArchiveContent}
    {m : WrittenManifest} (hopen : r.content = some content)
    (hread : Archive.read? content Archive.manifestPath = some m.bytes)
    (hvalues : ∀ a ∈ m.attributes, ∀ c ∈ a.value, Text.isLineBreak c = false)
    (hblank : ∀ a ∈ m.attributes, ∀ l ∈ a.others,
      Text.isAllBlank (Utf8.decodeLossy l.bytes) = false)
    (hwhole : ∀ a ∈ m.attributes, a.IsClassPath →
      ∀ l ∈ a.first :: a.others, ∃ t, l.bytes = Utf8.encode t) :
    r.manifestClassPath = .ok m.classPath := by
  have hclass : Manifest.classPath (Utf8.decodeLossy m.bytes) = m.classPath := by
    rw [Manifest.classPath, WrittenManifest.mainAttributes_eq hvalues hblank, List.find?_map,
      WrittenManifest.classPath]
    have hname : ((fun (entry : Text × Text) => Text.toLower entry.1 == "class-path".toList) ∘
        fun a => (a.name, a.readValue)) = fun a : WrittenAttribute => decide a.IsClassPath := by
      funext a
      exact Bool.eq_iff_iff.mpr (beq_iff_eq.trans decide_eq_true_iff.symm)
    rw [hname]
    cases hfound : m.attributes.find? fun a => a.IsClassPath with
    | none => rfl
    | some a =>
        have ha := List.mem_of_find?_eq_some hfound
        have hlists : a.IsClassPath := of_decide_eq_true
          (List.find?_some (p := fun a : WrittenAttribute => decide a.IsClassPath) hfound)
        change Text.fields a.readValue = _
        rw [WrittenAttribute.readValue_eq (hwhole a ha hlists), Text.fields_eq_filter]
  rw [ArchiveReader.manifestClassPath, ArchiveReader.openContent, hopen]
  change Except.ok (Archive.manifestClassPath content) = _
  rw [Archive.manifestClassPath, hread]
  exact congrArg _ hclass

namespace Manifest

/-! ### Samples -/

/-- An attribute cut inside a character. -/
def sampleVendor : WrittenAttribute where
  name := "Vendor".toList
  value := "Café: 1".toList
  first := ⟨Utf8.encode "Caf".toList ++ [0xC3], .both⟩
  others := [⟨[0xA9] ++ Utf8.encode ": 1".toList, .lineFeed⟩]
  name_ne_nil := by decide
  name_plain := List.all_iff_forall_prop.mp (by decide)
  pieces := by decide +kernel

/-- A class path on three lines. -/
def sampleLibraries : WrittenAttribute where
  name := "CLASS-path".toList
  value := "lib/a.jar  lib/é.jar".toList
  first := ⟨Utf8.encode "lib/a.jar  li".toList, .carriageReturn⟩
  others := [⟨Utf8.encode "b/é".toList, .both⟩, ⟨Utf8.encode ".jar".toList, .carriageReturn⟩]
  name_ne_nil := by decide
  name_plain := List.all_iff_forall_prop.mp (by decide)
  pieces := by decide +kernel

theorem sampleLibraries_whole :
    ∀ l ∈ sampleLibraries.first :: sampleLibraries.others, ∃ t, l.bytes = Utf8.encode t := by
  rw [List.forall_mem_cons]
  refine ⟨⟨"lib/a.jar  li".toList, rfl⟩, ?_⟩
  exact List.forall_mem_cons.mpr ⟨⟨"b/é".toList, rfl⟩,
    List.forall_mem_cons.mpr ⟨⟨".jar".toList, rfl⟩, List.forall_mem_nil _⟩⟩

/-- A manifest with a further section. -/
def sample : WrittenManifest where
  attributes := [sampleVendor, sampleLibraries]
  empty := .both
  further := Utf8.encode "Name: a/\nClass-Path: other.jar\n".toList
  attributes_ne_nil := by decide
  names_nodup := by decide +kernel
  empty_apart := fun _ _ _ => by decide

end Manifest

theorem ArchiveReader.manifestClassPath_of_written_sample :
    ArchiveReader.manifestClassPath ⟨Path.ofText "app.jar".toList, .default,
        some [(Archive.manifestPath, Manifest.sample.bytes)]⟩ =
      .ok ["lib/a.jar".toList, "lib/é.jar".toList] := by
  have hvalues : ∀ a ∈ Manifest.sample.attributes, ∀ c ∈ a.value, Text.isLineBreak c = false :=
    List.forall_mem_cons.mpr ⟨List.all_iff_forall_prop.mp (by decide),
      List.forall_mem_singleton.mpr (List.all_iff_forall_prop.mp (by decide))⟩
  have hread := ArchiveReader.manifestClassPath_of_written (m := Manifest.sample)
    (r := ⟨Path.ofText "app.jar".toList, .default,
      some [(Archive.manifestPath, Manifest.sample.bytes)]⟩) rfl
    (by decide +kernel) hvalues (by decide +kernel) ?_
  · rw [hread]
    decide +kernel
  · intro a ha hlists
    have ha : a ∈ [Manifest.sampleVendor, Manifest.sampleLibraries] := ha
    rw [List.mem_pair] at ha
    rcases ha with rfl | rfl
    · exact absurd hlists (by decide +kernel)
    · exact Manifest.sampleLibraries_whole

namespace Manifest

/-- A manifest of one attribute. -/
def WrittenAttribute.alone (a : WrittenAttribute) : WrittenManifest where
  attributes := [a]
  empty := .both
  further := []
  attributes_ne_nil := List.cons_ne_nil _ _
  names_nodup := List.nodup_singleton _
  empty_apart := fun _ _ _ => by decide

/-- A class path cut inside a character. -/
def cutCharacter : WrittenAttribute where
  name := "Class-Path".toList
  value := "é.jar".toList
  first := ⟨[0xC3], .both⟩
  others := [⟨[0xA9] ++ Utf8.encode ".jar".toList, .both⟩]
  name_ne_nil := by decide
  name_plain := List.all_iff_forall_prop.mp (by decide)
  pieces := by decide +kernel

/-- A class path with a line separator between two words. -/
def lineSeparator : WrittenAttribute where
  name := "Class-Path".toList
  value := "a.jar\u2028b.jar".toList
  first := ⟨Utf8.encode "a.jar\u2028b.jar".toList, .both⟩
  others := []
  name_ne_nil := by decide
  name_plain := List.all_iff_forall_prop.mp (by decide)
  pieces := by decide +kernel

/-- A class path with a line that holds nothing but a blank of it. -/
def blankLine : WrittenAttribute where
  name := "Class-Path".toList
  value := "a.jar  b.jar".toList
  first := ⟨Utf8.encode "a.jar".toList, .both⟩
  others := [⟨Utf8.encode " ".toList, .both⟩, ⟨Utf8.encode " b.jar".toList, .both⟩]
  name_ne_nil := by decide
  name_plain := List.all_iff_forall_prop.mp (by decide)
  pieces := by decide +kernel

/-- Where one of the three conditions does not hold, other words are found than were written. -/
theorem classPath_differs :
    (classPath (Utf8.decodeLossy cutCharacter.alone.bytes) = ["\uFFFD\uFFFD.jar".toList] ∧
      cutCharacter.alone.classPath = ["é.jar".toList]) ∧
    (classPath (Utf8.decodeLossy lineSeparator.alone.bytes) = ["a.jar".toList] ∧
      lineSeparator.alone.classPath = ["a.jar".toList, "b.jar".toList]) ∧
    classPath (Utf8.decodeLossy blankLine.alone.bytes) = ["a.jar".toList] ∧
      blankLine.alone.classPath = ["a.jar".toList, "b.jar".toList] := by
  decide +kernel

end Manifest

end Unjar
