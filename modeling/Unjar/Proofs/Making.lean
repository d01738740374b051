import Unjar.Proofs.FileTree

/-!
Directories and files that can be made.

Beneath a directory that a path leads to, any directory can be made if no file stands on the way to
it, whatever is missing of that way; and then a file can be written there, unless a directory stands
in its place.  What this does to the tree is told node by node: the directories on the way stand, the
file stands, and nothing else has changed.

Main definitions:

* `Unjar.FileTree.Clear` — no file stands on a way;
* `Unjar.FileTree.Makes` — **one tree comes from another by making the directories on a way**.

Main results:

* `Unjar.FileTree.WellFormed.put` — when a tree stays well formed;
* `Unjar.FileTree.makeDirectories_returns` — **directories can be made** where the way is clear;
* `Unjar.FileTree.returns_writeFile` — a file can be written where no directory stands.
-/

set_option autoImplicit false

namespace Unjar.FileTree

variable {t t' : FileTree} {root here there : Location} {names : List Text} {last : Text}

/-! ### Well-formed trees -/

/-- **A tree stays well formed** when something is put into a directory, and no directory gives way to
a file. -/
theorem WellFormed.put (h : t.WellFormed) {node : Node} (hne : here ≠ [])
    (hparent : t.get? here.dropLast = some .directory)
    (hnode : t.get? here = some .directory → node = .directory) : (t.put here node).WellFormed := by
  have hkept : ∀ there, t.get? there = some .directory →
      (t.put here node).get? there = some .directory := by
    intro there hthere
    rw [get?_put hne]
    split
    · next he => rw [hnode (he ▸ hthere)]
    · exact hthere
  refine ⟨fun there other hother => hkept _ ?_, hkept _ h.working⟩
  rw [get?_put hne] at hother
  split at hother
  · next he => rwa [he]
  · exact h.parent there other hother

/-! ### Ways -/

theorem follow_append (here : Location) (parts more : List Text) :
    t.follow here (parts ++ more) = t.follow here parts >>= fun there => t.follow there more := by
  induction parts generalizing here with
  | nil => rfl
  | cons part parts ih =>
      rw [List.cons_append, follow, follow]
      split
      · exact ih _
      · rfl
      · rfl

/-- Where the directories stay, a path that can be followed leads to the same location. -/
theorem follow_mono (h : ∀ here, t.get? here = some .directory → t'.get? here = some .directory)
    {parts : List Text} (hfollow : t.follow here parts = .ok there) :
    t'.follow here parts = .ok there := by
  induction parts generalizing here with
  | nil => exact hfollow
  | cons part parts ih =>
      unfold follow at hfollow ⊢
      split at hfollow
      · next hdirectory =>
        rw [h _ hdirectory]
        exact ih hfollow
      · cases hfollow
      · cases hfollow

theorem step_of_ne_up {part : Text} (h : Path.up ≠ part) : Path.step here part = here ++ [part] := by
  unfold Path.step
  rw [if_neg (by simpa using Ne.symm h)]

/-- Along directories a way can be followed, and one name further. -/
theorem follow_of_directories (hup : Path.up ∉ names ++ [last])
    (h : ∀ front, front <+: names → t.get? (root ++ front) = some .directory) :
    t.follow root (names ++ [last]) = .ok (root ++ (names ++ [last])) := by
  induction names generalizing root with
  | nil =>
      have hroot : t.get? root = some .directory := by simpa using h [] List.nil_prefix
      have hlast : Path.up ≠ last := by simpa using hup
      simp [follow, hroot, step_of_ne_up hlast]
  | cons name names ih =>
      have hroot : t.get? root = some .directory := by simpa using h [] List.nil_prefix
      rw [List.cons_append, List.mem_cons, not_or] at hup
      have hdirectories : ∀ front, front <+: names →
          t.get? (root ++ [name] ++ front) = some .directory := fun front hfront => by
        simpa using h (name :: front) (List.cons_prefix_cons.mpr ⟨rfl, hfront⟩)
      simpa [follow, hroot, step_of_ne_up hup.1] using ih hup.2 hdirectories

/-- **No file stands on a way**: what stands there are directories. -/
def Clear (t : FileTree) (root : Location) (names : List Text) : Prop :=
  ∀ front, front <+: names →
    t.get? (root ++ front) = none ∨ t.get? (root ++ front) = some .directory

theorem Clear.of_prefix {more : List Text} (h : t.Clear root more) (hnames : names <+: more) :
    t.Clear root names := fun front hfront => h front (hfront.trans hnames)

/-- A clear way ends where nothing stands. -/
theorem follow_of_clear (hclear : t.Clear root names) (hup : Path.up ∉ names)
    (hnone : t.get? (root ++ names) = none) :
    t.follow root (names ++ [last]) = .error .notFound := by
  induction names generalizing root with
  | nil =>
      have hroot : t.get? root = none := by simpa using hnone
      simp [follow, hroot]
  | cons name names ih =>
      rw [List.mem_cons, not_or] at hup
      have hrest : t.Clear (root ++ [name]) names := fun front hfront => by
        simpa using hclear (name :: front) (List.cons_prefix_cons.mpr ⟨rfl, hfront⟩)
      rcases hclear [] List.nil_prefix with hroot | hroot
      · have hroot : t.get? root = none := by simpa using hroot
        simp [follow, hroot]
      · have hroot : t.get? root = some .directory := by simpa using hroot
        have hend := ih hrest hup.2 (by simpa using hnone)
        simpa [follow, hroot, step_of_ne_up hup.1] using hend

/-! ### Directories -/

/-- **One tree comes from another by making the directories on a way.** -/
structure Makes (t : FileTree) (root : Location) (names : List Text) (t' : FileTree) : Prop where
  working : t'.workingDirectory = t.workingDirectory
  nodes : ∀ there, t'.get? there =
    if root <+: there ∧ there <+: root ++ names then some .directory else t.get? there

theorem Makes.get?_of_directory (h : t.Makes root names t')
    (hthere : t.get? there = some .directory) : t'.get? there = some .directory := by
  rw [h.nodes, hthere, ite_self]

theorem Makes.wellFormed (h : t.Makes root names t') (hwf : t.WellFormed)
    (hroot : t.get? root = some .directory) : t'.WellFormed := by
  refine ⟨fun there node hnode => ?_, h.working ▸ h.get?_of_directory hwf.working⟩
  rw [h.nodes] at hnode
  split at hnode
  · next hway =>
    obtain ⟨⟨front, rfl⟩, hfront⟩ := hway
    by_cases hempty : front = []
    · subst hempty
      rw [List.append_nil]
      exact h.get?_of_directory (hwf.parent _ _ hroot)
    · rw [List.dropLast_append_of_ne_nil hempty, h.nodes, if_pos]
      exact ⟨List.prefix_append _ _, (List.prefix_append_right_inj root).mpr
        ((List.dropLast_prefix front).trans ((List.prefix_append_right_inj root).mp hfront))⟩
  · exact h.get?_of_directory (hwf.parent _ _ hnode)

theorem outcome_makeDirectory {p : Path} (hlocate : t.locate p = .ok here) :
    outcome (makeDirectory p) t =
      if (t.get? here).isNone then (.ok (), t.put here .directory)
      else (.error .alreadyExists, t) := by
  simp only [makeDirectory, outcome_bind, outcome_target, hlocate, outcome_get]
  cases t.get? here <;> rfl

/-- Making a directory, whether or not there is one above it in its path. -/
theorem makeDirectoriesTo_eq (p : Path) (depth : Nat) : makeDirectoriesTo p depth =
    let here : Path := { p with parts := p.parts.take depth }
    tryCatch (makeDirectory here) fun fault =>
      if fault = .notFound then
        match depth with
        | 0 => throw fault
        | depth + 1 => do
          makeDirectoriesTo p depth
          tryCatch (makeDirectory here) fun fault =>
            if fault = .notFound then throw fault else settle here fault
      else settle here fault := by
  cases depth <;> rfl

theorem outcome_settle {p : Path} (hlocate : t.locate p = .ok here)
    (hdirectory : t.get? here = some .directory) (fault : FileFault) :
    outcome (settle p fault) t = (.ok (), t) := by
  simp [settle, outcome_bind, isDirectory, stat, hlocate, hdirectory, Node.isDirectory]

/-- Where a path leads, and a directory or nothing stands, there is a directory behind it. -/
theorem outcome_ensure {p : Path} {recover : FileFault → FileOperation Unit}
    (hlocate : t.locate p = .ok here)
    (hclear : t.get? here = none ∨ t.get? here = some .directory)
    (hrecover : recover .alreadyExists = settle p .alreadyExists) :
    outcome (tryCatch (makeDirectory p) recover) t =
      (.ok (), if (t.get? here).isNone then t.put here .directory else t) := by
  rw [outcome_tryCatch, outcome_makeDirectory hlocate]
  rcases hclear with hnone | hdirectory
  · simp [hnone]
  · simp [hdirectory, hrecover, outcome_settle hlocate hdirectory]

/-- One directory more on a way that is clear. -/
theorem Makes.concat {u : FileTree} (h : t.Makes root names u)
    (hclear : t.Clear root (names ++ [last])) :
    t.Makes root (names ++ [last])
      (if (u.get? (root ++ (names ++ [last]))).isNone then
        u.put (root ++ (names ++ [last])) .directory else u) := by
  have hway : ∀ there, root <+: there ∧ there <+: root ++ (names ++ [last]) ↔
      there = root ++ (names ++ [last]) ∨ root <+: there ∧ there <+: root ++ names := by
    intro there
    rw [← List.append_assoc, List.prefix_concat_iff]
    constructor
    · rintro ⟨hroot, hlast | hfront⟩
      · exact .inl hlast
      · exact .inr ⟨hroot, hfront⟩
    · rintro (rfl | ⟨hroot, hfront⟩)
      · exact ⟨(List.prefix_append root names).trans (List.prefix_append _ _), .inl rfl⟩
      · exact ⟨hroot, .inr hfront⟩
  have hdirectory : u.get? (root ++ (names ++ [last])) = none ∨
      u.get? (root ++ (names ++ [last])) = some .directory := by
    rw [h.nodes]
    split
    · exact .inr rfl
    · exact hclear _ List.prefix_rfl
  have hne : root ++ (names ++ [last]) ≠ [] := by simp
  rcases hdirectory with hnone | hdirectory
  · rw [hnone, Option.isNone_none, if_pos rfl]
    refine ⟨h.working, fun there => ?_⟩
    simp only [get?_put hne, h.nodes, hway]
    by_cases he : there = root ++ (names ++ [last])
    · simp [he]
    · simp [he]
  · rw [hdirectory, Option.isNone_some, if_neg Bool.false_ne_true]
    refine ⟨h.working, fun there => ?_⟩
    simp only [hway]
    by_cases he : there = root ++ (names ++ [last])
    · simp [he, hdirectory]
    · simp [he, h.nodes]

/-- Where the directories on a way stand there is nothing to make. -/
theorem makes_self (hwf : t.WellFormed) (hdirectory : t.get? (root ++ names) = some .directory) :
    t.Makes root names t := by
  refine ⟨rfl, fun there => ?_⟩
  split
  · next hway =>
    obtain ⟨rest, hrest⟩ := hway.2
    rw [← hrest] at hdirectory
    by_cases hempty : rest = []
    · simpa [hempty] using hdirectory
    · exact hwf.get?_of_prefix hdirectory hempty
  · rfl

section

variable {r : Nat} {base : List Text} {u : FileTree}

theorem locate_append (hlocate : t.locate ⟨r, base⟩ = .ok root) (names : List Text) :
    t.locate ⟨r, base ++ names⟩ = t.follow root names := by
  unfold locate at hlocate ⊢
  dsimp only at hlocate ⊢
  rw [follow_append, hlocate]
  rfl

theorem locate_mono (hworking : u.workingDirectory = t.workingDirectory)
    (h : ∀ here, t.get? here = some .directory → u.get? here = some .directory) {p : Path}
    (hlocate : t.locate p = .ok root) : u.locate p = .ok root := by
  unfold locate at hlocate ⊢
  rw [hworking]
  exact follow_mono h hlocate

/-- Once the directories on a way are made, a path leads along it and one name further. -/
theorem Makes.locate (h : t.Makes root names u) (hlocate : t.locate ⟨r, base⟩ = .ok root)
    (hup : Path.up ∉ names ++ [last]) :
    u.locate ⟨r, base ++ (names ++ [last])⟩ = .ok (root ++ (names ++ [last])) := by
  have hbase : u.locate ⟨r, base⟩ = .ok root :=
    locate_mono h.working (fun _ => h.get?_of_directory) hlocate
  rw [locate_append hbase]
  refine follow_of_directories hup fun front hprefix => ?_
  rw [h.nodes, if_pos]
  exact ⟨List.prefix_append _ _, (List.prefix_append_right_inj root).mpr hprefix⟩

/-- Then the last directory of a longer way can be made. -/
theorem Makes.ensure (h : t.Makes root names u) (hlocate : t.locate ⟨r, base⟩ = .ok root)
    (hup : Path.up ∉ names ++ [last]) (hclear : t.Clear root (names ++ [last]))
    {recover : FileFault → FileOperation Unit}
    (hrecover : recover .alreadyExists =
      settle ⟨r, base ++ (names ++ [last])⟩ .alreadyExists) :
    ∃ t', Returns (tryCatch (makeDirectory ⟨r, base ++ (names ++ [last])⟩) recover) u () t' ∧
      t.Makes root (names ++ [last]) t' := by
  refine ⟨_, outcome_ensure (h.locate hlocate hup) ?_ hrecover, h.concat hclear⟩
  rw [h.nodes]
  split
  · exact .inr rfl
  · exact hclear _ List.prefix_rfl

theorem makeDirectoriesTo_returns {p : Path} {rest : List Text}
    (hparts : p.parts = base ++ names ++ rest) (hwf : t.WellFormed)
    (hlocate : t.locate ⟨p.root, base⟩ = .ok root) (hroot : t.get? root = some .directory)
    (hup : Path.up ∉ names) (hclear : t.Clear root names) :
    ∃ t', Returns (makeDirectoriesTo p (base ++ names).length) t () t' ∧
      t.Makes root names t' := by
  induction names using List.reverseRecOn generalizing rest with
  | nil =>
      rw [List.append_nil] at hparts ⊢
      have htake : ({ p with parts := p.parts.take base.length } : Path) = ⟨p.root, base⟩ := by
        rw [hparts, List.take_left]
      refine ⟨t, ?_, makes_self hwf (by rwa [List.append_nil])⟩
      rw [Returns, makeDirectoriesTo_eq]
      dsimp only
      rw [htake, outcome_ensure hlocate (.inr hroot) (by simp), hroot]
      rfl
  | append_singleton names last ih =>
      have hparts' : p.parts = base ++ names ++ (last :: rest) := by simp [hparts]
      have hup' : Path.up ∉ names := fun h => hup (List.mem_append_left _ h)
      have hfront := hclear.of_prefix (List.prefix_append names [last])
      have hdepth : (base ++ (names ++ [last])).length = (base ++ names).length + 1 := by
        rw [← List.append_assoc, List.length_append, List.length_singleton]
      have htake : ({ p with parts := p.parts.take ((base ++ names).length + 1) } : Path) =
          ⟨p.root, base ++ (names ++ [last])⟩ := by
        rw [← hdepth, hparts, List.take_left]
      rw [hdepth, makeDirectoriesTo_eq]
      dsimp only
      rw [htake]
      rcases hfront names List.prefix_rfl with hnone | hdirectory
      · -- something above is missing and is made first
        have hmissing : t.locate ⟨p.root, base ++ (names ++ [last])⟩ = .error .notFound := by
          rw [locate_append hlocate, follow_of_clear hfront hup' hnone]
        have hfails : outcome (makeDirectory ⟨p.root, base ++ (names ++ [last])⟩) t =
            (.error .notFound, t) := by
          simp only [makeDirectory, outcome_bind, outcome_target, hmissing]
        obtain ⟨u, hu, hmakes⟩ := ih hparts' hup' hfront
        obtain ⟨t', ht', hmade⟩ : ∃ t', Returns
            (tryCatch (makeDirectory ⟨p.root, base ++ (names ++ [last])⟩) fun fault =>
              if fault = .notFound then throw fault
              else settle ⟨p.root, base ++ (names ++ [last])⟩ fault) u () t' ∧
            t.Makes root (names ++ [last]) t' :=
          hmakes.ensure hlocate hup hclear (by simp)
        refine ⟨t', ?_, hmade⟩
        rw [returns_tryCatch]
        refine .inr ⟨.notFound, t, hfails, ?_⟩
        rw [if_pos rfl]
        exact returns_bind.mpr ⟨(), u, hu, ht'⟩
      · exact (makes_self hwf hdirectory).ensure hlocate hup hclear (by simp)

/-- **Directories can be made** beneath one that a path leads to, where the way is clear. -/
theorem makeDirectories_returns (hwf : t.WellFormed) (hlocate : t.locate ⟨r, base⟩ = .ok root)
    (hroot : t.get? root = some .directory) (hup : Path.up ∉ names) (hclear : t.Clear root names) :
    ∃ t', Returns (makeDirectories ⟨r, base ++ names⟩) t () t' ∧ t.Makes root names t' :=
  makeDirectoriesTo_returns (List.append_nil _).symm hwf hlocate hroot hup hclear

end

/-- **A file can be written** where no directory stands. -/
theorem returns_writeFile {p : Path} {content : Bytes} (hlocate : t.locate p = .ok here)
    (hfile : t.get? here ≠ some .directory) :
    Returns (writeFile p content) t () (t.put here (.file content)) := by
  rw [Returns, writeFile, outcome_bind, outcome_target, hlocate]
  dsimp only
  rw [outcome_bind, outcome_get]
  dsimp only
  split
  · next hdirectory => exact absurd hdirectory hfile
  · rfl

end Unjar.FileTree
