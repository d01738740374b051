import Unjar.PackageTable
import Unjar.Proofs.Segments

/-!
The row that knows a package best.

Whether a row of the table is around a package is told by characters: the prefix of the row is the
package, or the package goes on behind it with a dot.  This says that the segments of the prefix are
the first of the package, so that a part of a word never matches.  All prefixes around one package are
therefore first segments of the same list, the one the beginning of the other; so the one with more
characters is the one with more segments, and those with the same number of either are equal.  The row
found is the first among those with the most.

Main definitions:

* `Unjar.PackageTable.IsPackageOf`, `Unjar.PackageTable.IsUnpackaged` — types with and without a
  package;
* `Unjar.PackageRow.segments`, `Unjar.PackageRow.Covers` — **the row is around a package**, segment
  by segment;
* `Unjar.PackageRow.artifact` — the dependency that a row names, field by field;
* `Unjar.PackageTable.IsMostSpecific` — the first of the rows around a package that count most.

Main results:

* `Unjar.PackageTable.isWithin_iff` — the test on characters is one on segments;
* `Unjar.PackageTable.isBest_bestRow` — the best row so far, after every row;
* `Unjar.PackageTable.isMostSpecific_congr` — counting characters is counting segments;
* `Unjar.PackageTable.match?_mostSpecific` — **a type stands for the artifact of the row that knows its
  package best**.
-/

set_option autoImplicit false

namespace Unjar

/-! ### Rows -/

namespace PackageRow

/-- The segments of the prefix of a row. -/
def segments (row : PackageRow) : List Name := splitOn '.'.toNat (Text.codePoints row.packageName)

/-- **The segments of the row are the first of the package.** -/
def Covers (row : PackageRow) (package : Name) : Prop := row.segments <+: splitOn '.'.toNat package

/-- The number of segments of the prefix. -/
def segmentCount (row : PackageRow) : Nat := row.segments.length

/-- **The artifact that a row names**, as a dependency found by the package of a type. -/
def artifact (row : PackageRow) : Coordinate where
  groupId := row.groupId
  artifactId := row.artifactId
  version := some row.version
  scope := some "compile".toList
  source := "package-prefix".toList
  type := none
  classifier := none
  isOptional := false
  exclusions := []

theorem coordinate_eq_artifact (row : PackageRow) : row.coordinate = row.artifact := rfl

/-- The number of characters of the prefix. -/
def characterCount (row : PackageRow) : Nat := row.packageName.length

theorem length_codePoints (row : PackageRow) :
    (Text.codePoints row.packageName).length = row.characterCount := List.length_map _

variable {row other : PackageRow} {package : Name}

/-- Of two rows around a package the one with no more segments goes on to the other. -/
theorem Covers.prefix_of_le (h : row.Covers package) (h' : other.Covers package)
    (hle : row.segmentCount ≤ other.segmentCount) : row.segments <+: other.segments :=
  List.prefix_of_prefix_length_le h h' hle

theorem Covers.characterCount_le (h : row.Covers package) (h' : other.Covers package)
    (hle : row.segmentCount ≤ other.segmentCount) : row.characterCount ≤ other.characterCount := by
  rw [← length_codePoints, ← length_codePoints]
  rcases splitOn_prefix_iff.mp (h.prefix_of_le h' hle) with he | ⟨rest, he⟩
  · exact Nat.le_of_eq (congrArg List.length he).symm
  · rw [he, List.length_append]
    exact Nat.le_add_right _ _

theorem Covers.characterCount_lt (h : row.Covers package) (h' : other.Covers package)
    (hlt : row.segmentCount < other.segmentCount) : row.characterCount < other.characterCount := by
  rw [← length_codePoints, ← length_codePoints]
  rcases splitOn_prefix_iff.mp (h.prefix_of_le h' (Nat.le_of_lt hlt)) with he | ⟨rest, he⟩
  · -- equal prefixes have the same segments
    rw [segmentCount, segmentCount, segments, segments, he] at hlt
    exact absurd hlt (Nat.lt_irrefl _)
  · rw [he, List.length_append, List.length_cons]
    omega

/-- **Of two rows around a package the one with more characters has more segments.** -/
theorem Covers.characterCount_lt_iff (h : row.Covers package) (h' : other.Covers package) :
    row.characterCount < other.characterCount ↔ row.segmentCount < other.segmentCount := by
  constructor
  · intro hlt
    by_contra hge
    exact absurd (h'.characterCount_le h (Nat.le_of_not_lt hge)) (Nat.not_le_of_lt hlt)
  · exact h.characterCount_lt h'

end PackageRow

namespace PackageTable

variable {package type : Name} {row other : PackageRow} {table seen : PackageTable}
  {best : Option PackageRow}

/-! ### Packages -/

/-- **The package of a type** is what stands before its last dot, if anything does. -/
def IsPackageOf (package type : Name) : Prop :=
  package ≠ [] ∧ ∃ simpleName, '.'.toNat ∉ simpleName ∧ type = package ++ '.'.toNat :: simpleName

/-- A type has no package: it has no dot, or its only dot comes first. -/
def IsUnpackaged (type : Name) : Prop :=
  '.'.toNat ∉ type ∨ ∃ simpleName, '.'.toNat ∉ simpleName ∧ type = '.'.toNat :: simpleName

theorem packageOf_eq_some_iff : packageOf type = some package ↔ IsPackageOf package type := by
  unfold packageOf
  constructor
  · intro h
    split at h
    · next before after hcut =>
      obtain ⟨rfl, hafter⟩ := cutAtLast_eq_some hcut
      split at h
      · cases h
      · next hempty =>
        cases h
        exact ⟨by simpa using hempty, after, hafter, rfl⟩
    · cases h
  · rintro ⟨hne, simpleName, hsimple, rfl⟩
    rw [cutAtLast_append package hsimple]
    simp [hne]

theorem packageOf_eq_none_iff : packageOf type = none ↔ IsUnpackaged type := by
  unfold packageOf
  constructor
  · intro h
    split at h
    · next before after hcut =>
      obtain ⟨rfl, hafter⟩ := cutAtLast_eq_some hcut
      split at h
      · next hempty =>
        obtain rfl := List.isEmpty_iff.mp hempty
        exact .inr ⟨after, hafter, rfl⟩
      · cases h
    · next hcut => exact .inl (cutAtLast_eq_none hcut)
  · rintro (hdot | ⟨simpleName, hsimple, rfl⟩)
    · rw [cutAtLast_eq_none_iff.mpr hdot]
    · have hcut := cutAtLast_append ([] : Name) hsimple
      rw [List.nil_append] at hcut
      rw [hcut]
      rfl

/-- **The test on characters is one on segments.** -/
theorem isWithin_iff {outer : Name} :
    isWithin package outer = true ↔ splitOn '.'.toNat outer <+: splitOn '.'.toNat package := by
  rw [splitOn_prefix_iff, isWithin, Bool.or_eq_true, beq_iff_eq, List.isPrefixOf_iff_prefix]
  refine or_congr Iff.rfl (exists_congr fun rest => ?_)
  rw [List.append_assoc, List.singleton_append, eq_comm]

/-! ### The best row -/

/-- **The first of the rows around a package that count most.** -/
def IsMostSpecific (count : PackageRow → Nat) (package : Name) (table : PackageTable)
    (row : PackageRow) : Prop :=
  ∃ before after, table = before ++ row :: after ∧ row.Covers package ∧
    (∀ earlier ∈ before, earlier.Covers package → count earlier < count row) ∧
    ∀ later ∈ after, later.Covers package → count later ≤ count row

/-- **The best row of those seen so far**, or none if none is around the package. -/
def IsBest (package : Name) (seen : PackageTable) : Option PackageRow → Prop
  | none => ∀ row ∈ seen, ¬row.Covers package
  | some row => IsMostSpecific PackageRow.characterCount package seen row

/-- Every row is looked at with the best row of those before it. -/
theorem bestRow_cons (package : Name) (best : Option PackageRow) (row : PackageRow)
    (table : PackageTable) :
    bestRow package best (row :: table) = bestRow package (bestRow package best [row]) table := by
  simp only [bestRow]
  split
  · rfl
  · cases best with
    | none => rfl
    | some held =>
        dsimp only
        split <;> rfl

theorem IsMostSpecific.concat {count : PackageRow → Nat} {held : PackageRow}
    (h : IsMostSpecific count package seen held)
    (hrow : row.Covers package → count row ≤ count held) :
    IsMostSpecific count package (seen ++ [row]) held := by
  obtain ⟨before, after, rfl, hcovers, hbefore, hafter⟩ := h
  refine ⟨before, after ++ [row], by simp, hcovers, hbefore, fun later hlater => ?_⟩
  rcases List.mem_append.mp hlater with hlater | hlater
  · exact hafter later hlater
  · rwa [List.mem_singleton.mp hlater]

theorem IsMostSpecific.le {count : PackageRow → Nat} {held : PackageRow}
    (h : IsMostSpecific count package seen held) {row : PackageRow} (hrow : row ∈ seen)
    (hcovers : row.Covers package) : count row ≤ count held := by
  obtain ⟨before, after, rfl, -, hbefore, hafter⟩ := h
  rcases List.mem_append.mp hrow with hrow | hrow
  · exact Nat.le_of_lt (hbefore row hrow hcovers)
  · rcases List.mem_cons.mp hrow with rfl | hrow
    · exact Nat.le_refl _
    · exact hafter row hrow hcovers

/-- **One row more**: the best row is taken over or gives way to it. -/
theorem IsBest.concat (h : IsBest package seen best) (row : PackageRow) :
    IsBest package (seen ++ [row]) (bestRow package best [row]) := by
  have hwithin : isWithin package (Text.codePoints row.packageName) = true ↔ row.Covers package :=
    isWithin_iff
  simp only [bestRow]
  by_cases hcovers : row.Covers package
  · rw [hwithin.mpr hcovers]
    cases best with
    | none =>
        exact ⟨seen, [], rfl, hcovers, fun earlier hmem hearlier => absurd hearlier (h _ hmem),
          fun later hlater => absurd hlater List.not_mem_nil⟩
    | some held =>
        by_cases hlonger : held.packageName.length < row.packageName.length
        · simp only [Bool.not_true, Bool.false_eq_true, if_false, if_pos hlonger]
          exact ⟨seen, [], rfl, hcovers,
            fun earlier hmem hearlier => Nat.lt_of_le_of_lt (h.le hmem hearlier) hlonger,
            fun later hlater => absurd hlater List.not_mem_nil⟩
        · simp only [Bool.not_true, Bool.false_eq_true, if_false, if_neg hlonger]
          exact IsMostSpecific.concat h fun _ => Nat.le_of_not_lt hlonger
  · rw [Bool.eq_false_iff.mpr (mt hwithin.mp hcovers)]
    cases best with
    | none =>
        intro other hother
        rcases List.mem_append.mp hother with hother | hother
        · exact h other hother
        · rwa [List.mem_singleton.mp hother]
    | some held => exact IsMostSpecific.concat h fun hrow => absurd hrow hcovers

/-- **The best row, after every row.** -/
theorem isBest_bestRow (h : IsBest package seen best) (table : PackageTable) :
    IsBest package (seen ++ table) (bestRow package best table) := by
  induction table generalizing seen best with
  | nil => rwa [List.append_nil]
  | cons row table ih =>
      have hnext := ih (h.concat row)
      rwa [List.append_assoc, List.singleton_append, ← bestRow_cons] at hnext

theorem isBest_table (package : Name) (table : PackageTable) :
    IsBest package table (bestRow package none table) := by
  have hnone : IsBest package [] none := fun row hrow => absurd hrow List.not_mem_nil
  exact isBest_bestRow hnone table

/-- Only one row is the first that counts most. -/
theorem IsMostSpecific.unique {count : PackageRow → Nat}
    (h : IsMostSpecific count package table row) (h' : IsMostSpecific count package table other) :
    row = other := by
  obtain ⟨before, after, rfl, hrow, hbefore, hafter⟩ := h
  obtain ⟨before', after', he, hother, hbefore', hafter'⟩ := h'
  rcases List.append_eq_append_iff.mp he with ⟨between, rfl, hrest⟩ | ⟨between, rfl, hrest⟩
  · cases between with
    | nil => exact (List.cons.inj hrest).1
    | cons first between =>
        -- the row stands before the other, which is then one of those behind it
        obtain ⟨rfl, rfl⟩ := List.cons.inj hrest
        have hlt := hbefore' row (by simp) hrow
        have hle := hafter other (by simp) hother
        omega
  · cases between with
    | nil => exact (List.cons.inj hrest).1.symm
    | cons first between =>
        obtain ⟨rfl, rfl⟩ := List.cons.inj hrest
        have hlt := hbefore other (by simp) hother
        have hle := hafter' row (by simp) hrow
        omega

/-- **Counting characters is counting segments.** -/
theorem isMostSpecific_congr : IsMostSpecific PackageRow.characterCount package table row ↔
    IsMostSpecific PackageRow.segmentCount package table row := by
  unfold IsMostSpecific
  refine exists_congr fun before => exists_congr fun after => and_congr_right fun _ =>
    and_congr_right fun hrow => and_congr ?_ ?_
  · exact forall₃_congr fun earlier _ hearlier => hearlier.characterCount_lt_iff hrow
  · refine forall₃_congr fun later _ hlater => ?_
    rw [← Nat.not_lt, ← Nat.not_lt, hrow.characterCount_lt_iff hlater]

theorem bestRow_eq_some_iff : bestRow package none table = some row ↔
    IsMostSpecific PackageRow.segmentCount package table row := by
  have hbest := isBest_table package table
  rw [← isMostSpecific_congr]
  constructor
  · intro h
    rwa [h] at hbest
  · intro h
    cases hfound : bestRow package none table with
    | none =>
        rw [hfound] at hbest
        obtain ⟨before, after, rfl, hcovers, -⟩ := h
        exact absurd hcovers (hbest row (by simp))
    | some found =>
        rw [hfound] at hbest
        rw [IsMostSpecific.unique hbest h]

theorem bestRow_eq_none_iff :
    bestRow package none table = none ↔ ∀ row ∈ table, ¬row.Covers package := by
  have hbest := isBest_table package table
  constructor
  · intro h
    rwa [h] at hbest
  · intro h
    cases hfound : bestRow package none table with
    | none => rfl
    | some found =>
        rw [hfound] at hbest
        obtain ⟨before, after, rfl, hcovers, -⟩ := hbest
        exact absurd hcovers (h found (by simp))

theorem match?_of_package (h : packageOf type = some package) :
    table.match? type = (bestRow package none table).map PackageRow.coordinate := by
  rw [match?, h, Option.map_eq_bind]
  rfl

theorem match?_of_none (h : packageOf type = none) : table.match? type = none := by
  rw [match?, h]
  rfl

/-- **A type stands for the artifact of the row that knows its package best.**  It stands for none
exactly if it has no package or no row is around its package, segment by segment; otherwise for that
of the row with the most segments among those around it, the first of several.  The row with the most
characters is always the same. -/
theorem match?_mostSpecific (table : PackageTable) (type : Name) :
    (table.match? type = none ↔ IsUnpackaged type ∨
      ∃ package, IsPackageOf package type ∧ ∀ row ∈ table, ¬row.Covers package) ∧
    (∀ c, table.match? type = some c ↔ ∃ package row, IsPackageOf package type ∧
      IsMostSpecific PackageRow.segmentCount package table row ∧ c = row.artifact) ∧
    ∀ package row, IsMostSpecific PackageRow.characterCount package table row ↔
      IsMostSpecific PackageRow.segmentCount package table row := by
  refine ⟨?_, fun c => ?_, fun package row => isMostSpecific_congr⟩
  · simp only [← packageOf_eq_none_iff, ← packageOf_eq_some_iff, ← bestRow_eq_none_iff]
    cases hpackage : packageOf type with
    | none => exact iff_of_true (match?_of_none hpackage) (.inl rfl)
    | some package =>
        rw [match?_of_package hpackage, Option.map_eq_none_iff]
        simp
  · simp only [← packageOf_eq_some_iff, ← bestRow_eq_some_iff]
    cases hpackage : packageOf type with
    | none =>
        rw [match?_of_none hpackage]
        simp
    | some package =>
        rw [match?_of_package hpackage, Option.map_eq_some_iff]
        simp only [PackageRow.coordinate_eq_artifact]
        constructor
        · rintro ⟨row, hrow, rfl⟩
          exact ⟨package, row, rfl, hrow, rfl⟩
        · rintro ⟨_, row, hsame, hrow, rfl⟩
          cases hsame
          exact ⟨row, hrow, rfl⟩

/-- Of two rows around a package the one with more segments counts. -/
example : known.match? (Text.codePoints "org.apache.commons.io.FileUtils".toList) =
    some ⟨"commons-io".toList, "commons-io".toList, some "2.11.0".toList,
      some "compile".toList, "package-prefix".toList, none, none, false, []⟩ := by
  decide +kernel

end PackageTable

end Unjar
