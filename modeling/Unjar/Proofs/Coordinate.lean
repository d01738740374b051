import Mathlib.Data.List.Nodup
import Unjar.Coordinate

/-!
Sets of dependencies.

A set of dependencies is what is left of the dependencies that were offered when of several under one
name only the first is kept.  So under each name stands the first offer of that name, and the order
of the offers matters only where two different ones have the same name.

Main definition: `Unjar.DependencySet.firsts` — the first dependency of each name.

Main results:

* `Unjar.DependencySet.toList_ofList` — **a set holds the first offer of each name**, in order;
* `Unjar.DependencySet.nodup_keys_ofList`, `Unjar.DependencySet.get?_ofList` — names are told apart,
  and under each stands its first offer;
* `Unjar.DependencySet.perm_ofList` — sets with the same first offers.
-/

set_option autoImplicit false

namespace Unjar.DependencySet

variable {s : DependencySet} {c d : Coordinate} {cs ds : List Coordinate} {key : Text × Text}

/-- **The first dependency of each name**, in order. -/
def firsts (cs : List Coordinate) : List Coordinate :=
  cs.eraseDupsBy fun c other => c.key == other.key

theorem insertAll_cons : s.insertAll (c :: cs) = (s.insert c).insertAll cs := rfl

theorem contains_iff : s.contains c = true ↔ ∃ other ∈ s.toList, other.key = c.key := by
  simp [contains, containsKey]

theorem toList_insertAll (s : DependencySet) (cs : List Coordinate) :
    (s.insertAll cs).toList =
      List.eraseDupsBy.loop (fun c other => c.key == other.key) cs s.toList.reverse := by
  induction cs generalizing s with
  | nil => simp [insertAll, List.eraseDupsBy.loop]
  | cons c cs ih =>
      have hany : s.toList.reverse.any (fun other => c.key == other.key) = s.contains c := by
        simp only [List.any_reverse, contains, containsKey, BEq.comm]
      rw [insertAll_cons, ih, List.eraseDupsBy.loop, hany, insert]
      cases s.contains c
      · simp
      · simp

/-- **A set holds the first offer of each name**, in the order of the offers. -/
theorem toList_ofList (cs : List Coordinate) : (ofList cs).toList = firsts cs :=
  toList_insertAll empty cs

theorem ofList_append (cs ds : List Coordinate) : ofList (cs ++ ds) = (ofList cs).insertAll ds :=
  List.foldl_append

theorem toList_ofList_eq_nil : (ofList cs).toList = [] ↔ cs = [] := by
  cases cs with
  | nil => simp [ofList, insertAll, empty]
  | cons c cs => simp [toList_ofList, firsts, List.eraseDupsBy_cons]

/-! ### Names -/

theorem nodup_keys_insert (h : s.keys.Nodup) : (s.insert c).keys.Nodup := by
  unfold insert
  split
  · exact h
  · next hnew =>
    simp only [keys, List.map_append, List.map_singleton]
    refine List.nodup_append.mpr ⟨h, by simp, ?_⟩
    rintro other hother _ hkey rfl
    obtain ⟨held, hheld, rfl⟩ := List.mem_map.mp hother
    exact hnew (contains_iff.mpr ⟨held, hheld, List.mem_singleton.mp hkey⟩)

theorem nodup_keys_insertAll (h : s.keys.Nodup) : (s.insertAll cs).keys.Nodup := by
  induction cs generalizing s with
  | nil => exact h
  | cons c cs ih => exact ih (nodup_keys_insert h)

/-- The dependencies of a set have different names. -/
theorem nodup_keys_ofList (cs : List Coordinate) : (ofList cs).keys.Nodup :=
  nodup_keys_insertAll List.nodup_nil

theorem find?_insert : (s.insert c).toList.find? (fun other => other.key == key) =
    (s.toList ++ [c]).find? fun other => other.key == key := by
  unfold insert
  split
  · next hheld =>
    obtain ⟨held, hmem, hkey⟩ := contains_iff.mp hheld
    rw [List.find?_append]
    by_cases hc : c.key = key
    · -- the name is taken, so that something is found before
      have hsome : (s.toList.find? fun other => other.key == key).isSome :=
        List.find?_isSome.mpr ⟨held, hmem, by simp [hkey, hc]⟩
      rw [Option.or_of_isSome hsome]
    · simp [hc]
  · rfl

theorem find?_insertAll : (s.insertAll cs).toList.find? (fun other => other.key == key) =
    (s.toList ++ cs).find? fun other => other.key == key := by
  induction cs generalizing s with
  | nil => simp [insertAll]
  | cons c cs ih =>
      rw [insertAll_cons, ih, List.find?_append, find?_insert, ← List.find?_append,
        List.append_assoc, List.singleton_append]

/-- **Under each name stands its first offer.** -/
theorem get?_ofList (cs : List Coordinate) (groupId artifactId : Text) :
    (ofList cs).get? groupId artifactId =
      cs.find? fun c => c.key == (groupId, artifactId) := find?_insertAll

/-- Where a name is offered, an offer of that name is the first. -/
theorem exists_first (h : c ∈ cs) :
    ∃ d, cs.find? (fun other => other.key == c.key) = some d ∧ d ∈ cs ∧ d.key = c.key := by
  cases hfind : cs.find? fun other => other.key == c.key with
  | none =>
      have hnone := List.find?_eq_none.mp hfind c h
      simp at hnone
  | some d => exact ⟨d, rfl, List.mem_of_find?_eq_some hfind, by simpa using List.find?_some hfind⟩

theorem mem_ofList_iff :
    c ∈ (ofList cs).toList ↔ cs.find? (fun other => other.key == c.key) = some c := by
  have hfind : (ofList cs).toList.find? (fun other => other.key == c.key) =
      cs.find? fun other => other.key == c.key := find?_insertAll
  rw [← hfind]
  constructor
  · intro hmem
    obtain ⟨d, hfound, hd, hkey⟩ := exists_first hmem
    rw [hfound, List.inj_on_of_nodup_map (nodup_keys_ofList cs) hd hmem hkey]
  · exact List.mem_of_find?_eq_some

/-- **Sets with the same first offers** hold the same dependencies. -/
theorem perm_ofList (h : ∀ key, cs.find? (fun c => c.key == key) = ds.find? fun c => c.key == key) :
    (ofList cs).toList.Perm (ofList ds).toList := by
  rw [List.perm_ext_iff_of_nodup (List.Nodup.of_map _ (nodup_keys_ofList cs))
    (List.Nodup.of_map _ (nodup_keys_ofList ds))]
  intro c
  rw [mem_ofList_iff, mem_ofList_iff, h]

/-- Where a name stands for one dependency only, the order of the offers does not matter. -/
theorem find?_eq_of_perm (h : cs.Perm ds)
    (hone : ∀ c ∈ cs, ∀ d ∈ cs, c.key = d.key → c = d) :
    cs.find? (fun c => c.key == key) = ds.find? fun c => c.key == key := by
  cases hfind : cs.find? fun c => c.key == key with
  | none =>
      rw [List.find?_eq_none] at hfind
      exact (List.find?_eq_none.mpr fun d hd => hfind d (h.mem_iff.mpr hd)).symm
  | some c =>
      have hc := List.mem_of_find?_eq_some hfind
      have hkey : (c.key == key) = true := by simpa using List.find?_some hfind
      obtain ⟨d, hfound, hd, hsame⟩ := exists_first (h.mem_iff.mp hc)
      rw [eq_of_beq hkey] at hfound
      rw [hfound, hone c hc d (h.mem_iff.mpr hd) hsame.symm]

end Unjar.DependencySet
