import Mathlib.Data.List.Induction
import Unjar.FileTree
import Unjar.Proofs.Path
import Unjar.Proofs.Returning

/-!
What the operations do to the files of a tree.

Directories come and go as they are needed; what matters is which files stand where.  So a tree is
looked at through its files alone, and each operation is described by what it does to them: making
directories does nothing, writing or replacing a file changes what stands at one location, and
removing a directory leaves nothing beneath it.  The names that a path takes on its way do not
matter: whatever can be followed leads to the location that the path names.

Main definitions:

* `Unjar.FileTree.file?` — the file at a location;
* `Unjar.FileTree.WellFormed` — everything stands in a directory;
* `Unjar.FileTree.SameFiles`, `Unjar.FileTree.Writes` — what two trees have in common.

Main results:

* `Unjar.FileTree.get?_of_not_exists` — where a path leads to nothing, nothing stands beneath it;
* `Unjar.FileTree.keeps_makeDirectories`, `Unjar.FileTree.removeTree_returns`,
  `Unjar.FileTree.writeFile_returns`, `Unjar.FileTree.get?_of_replaceFile` — the operations.
-/

set_option autoImplicit false

namespace Unjar.FileTree

/-- **The file at a location**; a directory is none. -/
def file? (t : FileTree) (here : Location) : Option Node :=
  (t.get? here).filter fun node => !node.isDirectory

/-- **Everything stands in a directory**, and so does whoever works in the tree. -/
structure WellFormed (t : FileTree) : Prop where
  parent : ∀ here node, t.get? here = some node → t.get? here.dropLast = some .directory
  working : t.get? t.workingDirectory = some .directory

/-- Two trees hold the same files. -/
structure SameFiles (t t' : FileTree) : Prop where
  working : t'.workingDirectory = t.workingDirectory
  files : ∀ here, t'.file? here = t.file? here

/-- One tree comes from another by writing a file. -/
structure Writes (t : FileTree) (here : Location) (content : Bytes) (t' : FileTree) : Prop where
  working : t'.workingDirectory = t.workingDirectory
  files : ∀ there, t'.file? there = if there = here then some (.file content) else t.file? there

theorem SameFiles.refl (t : FileTree) : t.SameFiles t := ⟨rfl, fun _ => rfl⟩

theorem SameFiles.trans {t u v : FileTree} (h : t.SameFiles u) (h' : u.SameFiles v) :
    t.SameFiles v :=
  ⟨h'.working.trans h.working, fun here => (h'.files here).trans (h.files here)⟩

theorem SameFiles.writes {t u v : FileTree} {here : Location} {content : Bytes}
    (h : t.SameFiles u) (h' : u.Writes here content v) : t.Writes here content v := by
  refine ⟨h'.working.trans h.working, fun there => ?_⟩
  rw [h'.files, h.files]

theorem file?_of_get?_eq_none {t : FileTree} {here : Location} (h : t.get? here = none) :
    t.file? here = none := by
  simp [file?, h]

/-! ### What stands where after a change -/

theorem lookup_cons (here there : Location) (node : Node) (nodes : List (Location × Node)) :
    ((there, node) :: nodes).lookup here =
      if here = there then some node else nodes.lookup here := by
  rw [List.lookup_cons]
  by_cases h : here = there
  · simp [h]
  · have hb : (here == there) = false := by simpa using h
    rw [hb, if_neg h]

theorem lookup_putIn (here there : Location) (node : Node) (nodes : List (Location × Node)) :
    (putIn here node nodes).lookup there =
      if there = here then some node else nodes.lookup there := by
  induction nodes with
  | nil => exact lookup_cons there here node []
  | cons entry nodes ih =>
      obtain ⟨other, old⟩ := entry
      unfold putIn
      split
      · next ho =>
        subst ho
        simp only [lookup_cons]
        split <;> rfl
      · next ho =>
        simp only [lookup_cons, ih]
        by_cases ht : there = other
        · simp [ht, ho]
        · simp [ht]

@[simp] theorem put_workingDirectory (t : FileTree) (here : Location) (node : Node) :
    (t.put here node).workingDirectory = t.workingDirectory := rfl

theorem get?_put {here : Location} (h : here ≠ []) (t : FileTree) (there : Location)
    (node : Node) :
    (t.put here node).get? there = if there = here then some node else t.get? there := by
  by_cases ht : there = here
  · subst ht
    simp [get?, put, lookup_putIn, h]
  · simp [get?, put, lookup_putIn, ht]

theorem lookup_filter (p : Location → Bool) (nodes : List (Location × Node)) (here : Location) :
    (nodes.filter fun entry => p entry.1).lookup here =
      if p here then nodes.lookup here else none := by
  induction nodes with
  | nil => simp
  | cons entry nodes ih =>
      obtain ⟨there, node⟩ := entry
      rw [List.filter_cons]
      by_cases hp : p there = true
      · rw [if_pos hp, lookup_cons, lookup_cons, ih]
        by_cases ht : here = there
        · rw [if_pos ht, if_pos ht, if_pos (by rwa [ht])]
        · rw [if_neg ht, if_neg ht]
      · rw [if_neg hp, lookup_cons, ih]
        by_cases ht : here = there
        · rw [if_neg (by rwa [ht]), if_neg (by rwa [ht])]
        · rw [if_neg ht]

theorem get?_erase (t : FileTree) {here : Location} (h : here ≠ []) (there : Location) :
    (t.erase here).get? there = if there = here then none else t.get? there := by
  have hl := lookup_filter (fun l => l ≠ here) t.nodes there
  simp only [get?, erase]
  rw [hl]
  by_cases ht : there = here
  · simp [ht, h]
  · simp only [ht, ne_eq, not_false_eq_true, decide_true, if_true, if_false]

theorem putIn_of_lookup_eq_none {here : Location} {nodes : List (Location × Node)}
    (h : nodes.lookup here = none) (node : Node) :
    putIn here node nodes = nodes ++ [(here, node)] := by
  induction nodes with
  | nil => rfl
  | cons entry nodes ih =>
      obtain ⟨there, other⟩ := entry
      rw [lookup_cons] at h
      split at h
      · cases h
      · next hne => rw [putIn, if_neg (Ne.symm hne), ih h, List.cons_append]

/-- What is put where nothing stood and then taken away again leaves the tree as it was. -/
theorem erase_put {t : FileTree} {here : Location} (h : t.get? here = none) (node : Node) :
    (t.put here node).erase here = t := by
  have hne : here ≠ [] := by
    rintro rfl
    simp [get?] at h
  have hlookup : t.nodes.lookup here = none := by simpa [get?, hne] using h
  have hothers : ∀ entry ∈ t.nodes, entry.1 ≠ here := by
    intro entry hentry he
    have hsome := List.lookup_eq_none_iff.mp hlookup entry hentry
    simp [he] at hsome
  simp only [erase, put, putIn_of_lookup_eq_none hlookup, List.filter_append]
  have hfilter : (t.nodes.filter fun entry => decide (entry.1 ≠ here)) = t.nodes :=
    List.filter_eq_self.mpr fun entry hentry => decide_eq_true (hothers entry hentry)
  rw [hfilter]
  simp

theorem get?_prune (t : FileTree) {here : Location} (h : here ≠ []) (there : Location) :
    (t.prune here).get? there = if here <+: there then none else t.get? there := by
  have hl := lookup_filter (fun l => !here.isPrefixOf l) t.nodes there
  have hb : here.isPrefixOf there = true ↔ here <+: there := List.isPrefixOf_iff_prefix
  simp only [get?, prune, restrict]
  rw [hl]
  by_cases hp : here <+: there
  · have hne : there ≠ [] := fun he => h (List.prefix_nil.mp (he ▸ hp))
    simp only [hb.mpr hp, hp, if_true, Bool.not_true, List.isEmpty_iff, hne, if_false]
    rfl
  · have hf : here.isPrefixOf there = false := by
      rw [← Bool.not_eq_true, hb]
      exact hp
    simp only [hf, hp, if_false, Bool.not_false, if_true]

theorem writes_put {t : FileTree} {here : Location} (h : here ≠ []) (content : Bytes) :
    t.Writes here content (t.put here (.file content)) := by
  refine ⟨rfl, fun there => ?_⟩
  simp only [file?, get?_put h]
  split <;> simp [Node.isDirectory]

theorem sameFiles_put_directory {t : FileTree} {here : Location} (h : t.get? here = none) :
    t.SameFiles (t.put here .directory) := by
  have hne : here ≠ [] := by
    rintro rfl
    simp [get?] at h
  refine ⟨rfl, fun there => ?_⟩
  simp only [file?, get?_put hne]
  split
  · next ht => simp [ht, h, Node.isDirectory]
  · rfl

/-- Whether a tree is well formed shows on its nodes. -/
theorem wellFormed_of_nodes {t : FileTree}
    (h : ∀ entry ∈ t.nodes, t.get? entry.1.dropLast = some .directory)
    (hw : t.get? t.workingDirectory = some .directory) : t.WellFormed := by
  refine ⟨fun here node hnode => ?_, hw⟩
  by_cases hroot : here = []
  · subst hroot
    rfl
  · have hl : t.nodes.lookup here = some node := by simpa [get?, hroot] using hnode
    obtain ⟨front, back, hnodes, -⟩ := List.lookup_eq_some_iff.mp hl
    exact h (here, node) (by simp [hnodes])

/-! ### Following paths -/

theorem follow_eq {t : FileTree} {here there : Location} {parts : List Text}
    (h : t.follow here parts = .ok there) : there = parts.foldl Path.step here := by
  induction parts generalizing here with
  | nil => simpa [follow, eq_comm] using h
  | cons part parts ih =>
      unfold follow at h
      split at h
      · exact ih h
      · cases h
      · cases h

/-- A path that can be followed leads to the location that it names. -/
theorem locate_eq {t : FileTree} {p : Path} {here : Location} (h : t.locate p = .ok here) :
    here = Path.normalize t.workingDirectory p := follow_eq h

theorem WellFormed.get?_of_prefix {t : FileTree} (h : t.WellFormed) {here rest : Location}
    {node : Node} (hn : t.get? (here ++ rest) = some node) (hr : rest ≠ []) :
    t.get? here = some .directory := by
  induction rest using List.reverseRecOn generalizing node with
  | nil => exact absurd rfl hr
  | append_singleton rest last ih =>
      have hp := h.parent _ _ hn
      rw [← List.append_assoc, List.dropLast_concat] at hp
      by_cases he : rest = []
      · simpa [he] using hp
      · exact ih hp he

/-- What stands in a well-formed tree can be reached. -/
theorem WellFormed.follow {t : FileTree} (h : t.WellFormed) {here rest : Location}
    {parts : List Text} {node : Node} (hup : Path.up ∉ parts)
    (hn : t.get? (here ++ parts ++ rest) = some node) :
    t.follow here parts = .ok (here ++ parts) := by
  induction parts generalizing here with
  | nil => simp [FileTree.follow]
  | cons part parts ih =>
      have hd : t.get? here = some .directory := by
        rw [List.append_assoc] at hn
        exact h.get?_of_prefix hn (by simp)
      rw [List.mem_cons, not_or] at hup
      have hs : Path.step here part = here ++ [part] := by
        simp [Path.step, Ne.symm hup.1]
      have hn' : t.get? (here ++ [part] ++ parts ++ rest) = some node := by simpa using hn
      simp only [FileTree.follow, hd, hs]
      simpa using ih hup.2 hn'

/-- **Where a path leads to nothing, nothing stands beneath it.** -/
theorem get?_of_not_exists {t : FileTree} (h : t.WellFormed) {p : Path} (hup : Path.up ∉ p.parts)
    (he : t.exists? p = false) {here : Location}
    (hp : Path.normalize t.workingDirectory p <+: here) : t.get? here = none := by
  obtain ⟨rest, rfl⟩ := hp
  cases hn : t.get? (Path.normalize t.workingDirectory p ++ rest) with
  | none => rfl
  | some node =>
      exfalso
      have hl : t.locate p = .ok (Path.normalize t.workingDirectory p) := by
        rw [Path.normalize_of_not_mem _ hup] at hn ⊢
        exact h.follow hup hn
      simp only [exists?, stat, hl, Option.isSome_eq_false_iff, Option.isNone_iff_eq_none] at he
      by_cases hr : rest = []
      · simp [hr, he] at hn
      · simp [h.get?_of_prefix hn hr] at he

/-! ### The operations -/

section Operations

variable {t t' : FileTree} {p : Path} {here : Location} {content : Bytes} {u : Unit}

theorem outcome_target : outcome (target p) t = (t.locate p, t) := by
  simp only [target, outcome_bind, outcome_get]
  cases t.locate p <;> rfl

theorem target_returns (h : Returns (target p) t here t') :
    here = Path.normalize t.workingDirectory p ∧ t' = t := by
  rw [Returns, outcome_target, Prod.mk.injEq] at h
  exact ⟨locate_eq h.1, h.2.symm⟩

/-- Making a directory changes no file, and neither does failing to. -/
theorem keeps_makeDirectory (p : Path) : Keeps SameFiles (makeDirectory p) := by
  intro t
  simp only [makeDirectory, outcome_bind, outcome_target, outcome_get]
  rcases t.locate p with fault | here
  · exact .refl t
  · cases hn : t.get? here with
    | some node => simpa [hn] using .refl t
    | none => simpa [hn] using sameFiles_put_directory hn

/-- Making a directory and those above it moves the tree as making each of them does. -/
theorem keeps_makeDirectories_of {R : FileTree → FileTree → Prop} (refl : ∀ t, R t t)
    (trans : ∀ {t u v}, R t u → R u v → R t v)
    (make : ∀ front, front <+: p.parts → Keeps R (makeDirectory { p with parts := front })) :
    Keeps R (makeDirectories p) := by
  have keepsSettle : ∀ (q : Path) fault, Keeps R (settle q fault) := by
    intro q fault t
    simp only [settle, outcome_bind, outcome_get]
    split <;> exact refl t
  have caught : ∀ (q : Path) fault, Keeps R
      (if fault = .notFound then throw fault else settle q fault : FileOperation Unit) := by
    intro q fault
    split
    · exact fun t => refl t
    · exact keepsSettle q fault
  unfold makeDirectories
  generalize p.parts.length = depth
  induction depth with
  | zero =>
      exact (make [] List.nil_prefix).tryCatch trans fun fault => caught _ fault
  | succ depth ih =>
      refine (make _ (List.take_prefix _ _)).tryCatch trans fun fault => ?_
      split
      · refine ih.bind trans fun _ => ?_
        exact (make _ (List.take_prefix _ _)).tryCatch trans fun fault => caught _ fault
      · exact keepsSettle _ fault

/-- Making a directory and those above it changes no file, however it ends. -/
theorem keeps_makeDirectories (p : Path) : Keeps SameFiles (makeDirectories p) :=
  keeps_makeDirectories_of .refl .trans fun _ _ => keeps_makeDirectory _

/-- **Writing a file** changes what stands where its path leads. -/
theorem writeFile_returns (h : Returns (writeFile p content) t u t') :
    t' = t.put (Path.normalize t.workingDirectory p) (.file content) ∧
      Path.normalize t.workingDirectory p ≠ [] := by
  obtain ⟨here, _, htarget, h⟩ := returns_bind.mp h
  obtain ⟨rfl, rfl⟩ := target_returns htarget
  replace h := returns_get_bind.mp h
  split at h
  · exact absurd h not_returns_throw
  · next hn =>
    refine ⟨(returns_modify.mp h).symm, fun he => hn ?_⟩
    simp [he, get?]

theorem writes_of_writeFile (h : Returns (writeFile p content) t u t') :
    t.Writes (Path.normalize t.workingDirectory p) content t' := by
  obtain ⟨rfl, hne⟩ := writeFile_returns h
  exact writes_put hne content

/-- **Removing a directory** leaves nothing beneath it. -/
theorem removeTree_returns (h : Returns (removeTree p) t u t') :
    t' = t.prune (Path.normalize t.workingDirectory p) := by
  obtain ⟨here, _, htarget, h⟩ := returns_bind.mp h
  obtain ⟨rfl, rfl⟩ := target_returns htarget
  replace h := returns_get_bind.mp h
  split at h
  · exact absurd h not_returns_throw
  · -- under a name that cannot be removed the contents go, and then the removal fails
    split at h
    · exact absurd h not_returns_bind_throw
    · split at h
      · exact absurd h not_returns_bind_throw
      · split at h
        · exact absurd h not_returns_throw
        · exact (returns_modify.mp h).symm
  · exact absurd h not_returns_throw

theorem freeName_eq_some {directory : Location} {names : List Text} {name : Text}
    (h : t.freeName directory names = some name) : t.get? (directory ++ [name]) = none := by
  simpa using List.find?_some h

theorem rename_returns {source : Location} (h : Returns (rename source p) t u t') :
    ∃ node, t.get? source = some node ∧ Path.normalize t.workingDirectory p ≠ [] ∧
      t' = (t.erase source).put (Path.normalize t.workingDirectory p) node := by
  obtain ⟨here, _, htarget, h⟩ := returns_bind.mp h
  obtain ⟨rfl, rfl⟩ := target_returns htarget
  replace h := returns_get_bind.mp h
  replace h := returns_get_bind.mp h
  split at h
  · exact absurd h not_returns_throw
  · next node hnode hdir =>
    refine ⟨node, hnode, fun he => hdir ?_, (returns_modify.mp h).symm⟩
    simp [he, get?]
  · exact absurd h not_returns_throw

/-- **Replacing a file** changes what stands where its path leads; of the new file beside it nothing
remains. -/
theorem get?_of_replaceFile (h : Returns (replaceFile p content) t u t') :
    t'.workingDirectory = t.workingDirectory ∧ ∀ there, t'.get? there =
      if there = Path.normalize t.workingDirectory p then some (.file content)
      else t.get? there := by
  replace h := returns_get_bind.mp h
  dsimp only at h
  split at h
  · exact absurd h not_returns_throw
  next name hname =>
  have hfree := freeName_eq_some hname
  generalize Path.normalize t.workingDirectory p.parent ++ [name] = source at h hfree
  obtain ⟨_, t₁, hwrite, h⟩ := returns_bind.mp h
  obtain ⟨rfl, hne⟩ := writeFile_returns hwrite
  generalize Path.normalize t.workingDirectory ⟨1, source⟩ = there at h hne
  rcases returns_tryCatch.mp h with h | ⟨fault, t₂, -, h⟩
  · obtain ⟨node, hnode, hhere, rfl⟩ := rename_returns h
    -- the name was free, so only the write can have put the file there that is moved
    rw [get?_put hne] at hnode
    obtain rfl : source = there := by
      by_contra hst
      rw [if_neg hst, hfree] at hnode
      cases hnode
    obtain rfl : Node.file content = node := by simpa using hnode
    refine ⟨rfl, fun other => ?_⟩
    rw [get?_put hhere, get?_erase _ hne, get?_put hne, put_workingDirectory]
    by_cases ho : other = Path.normalize t.workingDirectory p
    · rw [if_pos ho, if_pos ho]
    · rw [if_neg ho, if_neg ho]
      by_cases hs : other = source
      · rw [if_pos hs, hs, hfree]
      · rw [if_neg hs, if_neg hs]
  · exact absurd h not_returns_bind_throw

theorem replaceFile_returns (h : Returns (replaceFile p content) t u t') :
    t.Writes (Path.normalize t.workingDirectory p) content t' := by
  obtain ⟨hwork, hnodes⟩ := get?_of_replaceFile h
  refine ⟨hwork, fun there => ?_⟩
  simp only [file?, hnodes]
  split <;> simp [Node.isDirectory]

end Operations

end Unjar.FileTree
