import Unjar.PackageTable
import Unjar.Proofs.Coordinate

/-!
Tables of packages.

The dependency that a type stands for comes from a row of the table.  A table may name one artifact
in several rows; it is consistent if these agree on the version, and then the dependencies that it
knows are told apart by their names.

Main definition: `Unjar.PackageTable.IsConsistent` — tables with one version of each artifact.

Main results:

* `Unjar.PackageTable.exists_row_of_match?` — what a type stands for is the artifact of a row;
* `Unjar.PackageTable.eq_of_match?` — **a consistent table knows one dependency of each name**.
-/

set_option autoImplicit false

namespace Unjar.PackageTable

variable {table : PackageTable} {type other : Name} {c d : Coordinate}

/-- **A table with one version of each artifact.** -/
def IsConsistent (table : PackageTable) : Prop :=
  ∀ row ∈ table, ∀ other ∈ table, row.groupId = other.groupId →
    row.artifactId = other.artifactId → row.version = other.version

instance (table : PackageTable) : Decidable table.IsConsistent :=
  inferInstanceAs (Decidable (∀ row ∈ table, ∀ other ∈ table, _ → _ → _))

/-- The built-in table is consistent. -/
theorem isConsistent_known : known.IsConsistent := by decide +kernel

/-- The best row is one of the table, or it was the best before. -/
theorem mem_of_bestRow {package : Name} {best : Option PackageRow}
    {table : PackageTable} {row : PackageRow} (h : bestRow package best table = some row) :
    best = some row ∨ row ∈ table := by
  induction table generalizing best with
  | nil => exact .inl h
  | cons first table ih =>
      unfold bestRow at h
      have hnext : ∀ {best'}, (best' = best ∨ best' = some first) →
          bestRow package best' table = some row → best = some row ∨ row ∈ first :: table := by
        rintro best' hbest hrow
        rcases ih hrow with hrow | hrow
        · rcases hbest with rfl | rfl
          · exact .inl hrow
          · cases hrow
            exact .inr List.mem_cons_self
        · exact .inr (List.mem_cons_of_mem _ hrow)
      split at h
      · exact hnext (.inl rfl) h
      · split at h
        · exact hnext (.inr rfl) h
        · split at h
          · exact hnext (.inr rfl) h
          · exact hnext (.inl rfl) h

/-- What a type stands for is the artifact of a row. -/
theorem exists_row_of_match? (h : table.match? type = some c) :
    ∃ row ∈ table, c = row.coordinate := by
  obtain ⟨package, -, h⟩ := Option.bind_eq_some_iff.mp h
  obtain ⟨row, hrow, h⟩ := Option.bind_eq_some_iff.mp h
  rcases mem_of_bestRow hrow with hnone | hmem
  · cases hnone
  · exact ⟨row, hmem, (Option.some.inj h).symm⟩

/-- **A consistent table knows one dependency of each name.** -/
theorem eq_of_match? (h : table.IsConsistent) (hc : table.match? type = some c)
    (hd : table.match? other = some d) (hkey : c.key = d.key) : c = d := by
  obtain ⟨row, hrow, rfl⟩ := exists_row_of_match? hc
  obtain ⟨row', hrow', rfl⟩ := exists_row_of_match? hd
  obtain ⟨hgroup, hartifact⟩ := Prod.mk.inj hkey
  have hgroup' : row.groupId = row'.groupId := hgroup
  have hartifact' : row.artifactId = row'.artifactId := hartifact
  rw [PackageRow.coordinate, PackageRow.coordinate, hgroup', hartifact',
    h row hrow row' hrow' hgroup' hartifact']

end Unjar.PackageTable
