import Mathlib.Data.Finset.Sort
import Mathlib.Data.List.Lex
import Unjar.Proofs.Extraction
import Unjar.Proofs.Returning

/-!
Sets of type names in order.

A set of type names is kept as a list, and every set that is built lists its members in the order of
their code points, each once.  So two sets with the same members are equal, and in which order the
members came does not show.

Main definition: `Unjar.TypeSet.IsSorted` — the members are listed in order.

Main results:

* `Unjar.TypeSet.isSorted_insertAll`, `Unjar.TypeSet.isSorted_ofList` — **what is built is in order**;
* `Unjar.TypeSet.ext_of_isSorted` — a set is what its members are;
* `Unjar.TypeSet.toList_ofList` — the members of a list in order.
-/

set_option autoImplicit false

namespace Unjar

namespace TypeSet

variable {s t : TypeSet} {names : List Name}

/-- **The members are listed in order**, each once. -/
def IsSorted (s : TypeSet) : Prop := s.toList.SortedLT

theorem isSorted_empty : empty.IsSorted := List.Pairwise.nil.sortedLT

theorem sortedLT_insertInto {l : List Name} (h : l.SortedLT) (n : Name) :
    (insertInto n l).SortedLT := by
  induction l with
  | nil => exact (List.pairwise_singleton _ n).sortedLT
  | cons m r ih =>
      obtain ⟨hm, hr⟩ := List.pairwise_cons.mp h.pairwise
      unfold insertInto
      by_cases hlt : n < m
      · rw [if_pos hlt]
        refine (List.pairwise_cons.mpr ⟨?_, h.pairwise⟩).sortedLT
        intro k hk
        rcases List.mem_cons.mp hk with rfl | hk
        · exact hlt
        · exact hlt.trans (hm k hk)
      · rw [if_neg hlt]
        by_cases heq : n = m
        · rwa [if_pos heq]
        · rw [if_neg heq]
          refine (List.pairwise_cons.mpr ⟨?_, (ih hr.sortedLT).pairwise⟩).sortedLT
          intro k hk
          rcases mem_insertInto.mp hk with rfl | hk
          · exact lt_of_le_of_ne (not_lt.mp hlt) (Ne.symm heq)
          · exact hm k hk

theorem isSorted_insert (h : s.IsSorted) (n : Name) : (s.insert n).IsSorted :=
  sortedLT_insertInto h n

/-- Adding members keeps the order. -/
theorem isSorted_insertAll (h : s.IsSorted) (names : List Name) : (s.insertAll names).IsSorted := by
  induction names generalizing s with
  | nil => exact h
  | cons n names ih => exact ih (isSorted_insert h n)

theorem isSorted_ofList (names : List Name) : (ofList names).IsSorted :=
  isSorted_insertAll isSorted_empty names

theorem isSorted_union (h : s.IsSorted) : (s.union t).IsSorted := isSorted_insertAll h _

/-- **A set is what its members are.** -/
theorem ext_of_isSorted (hs : s.IsSorted) (ht : t.IsSorted)
    (h : ∀ n, n ∈ s.toList ↔ n ∈ t.toList) : s = t := by
  cases s
  cases t
  exact congrArg TypeSet.mk (List.SortedLT.eq_of_mem_iff hs ht h)

/-- The members of a list are listed in the order of their code points. -/
theorem toList_ofList (names : List Name) : (ofList names).toList = names.toFinset.sort := by
  refine List.SortedLT.eq_of_mem_iff (isSorted_ofList names) (Finset.sortedLT_sort _) fun n => ?_
  rw [mem_ofList, Finset.mem_sort, List.mem_toFinset]

theorem mem_union {name : Name} :
    name ∈ (s.union t).toList ↔ name ∈ s.toList ∨ name ∈ t.toList := mem_insertAll

end TypeSet

/-- The types that a class mentions are listed in order. -/
theorem ClassReferences.isSorted_of_extract {bytes : Bytes} {found : ClassReferences}
    (h : extract bytes = .ok found) : found.types.IsSorted := by
  obtain ⟨classFile, -, h⟩ := bind_eq_ok.mp h
  obtain ⟨methods, -, h⟩ := bind_eq_ok.mp h
  cases h
  exact TypeSet.isSorted_ofList _

end Unjar
