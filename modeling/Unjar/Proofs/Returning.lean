import Unjar.Text

/-!
Computations that return.

The operations on files and the parts of a run are computations with a state that may fail.  What
is said about them is said about the runs that return: a sequence returns when its steps do, one
after the other, and a loop that returns has kept every invariant that its body keeps.  Where a
fault is caught the state that it left behind matters too, so a second notion says what holds of
the state however a computation ends.

Main definitions:

* `Unjar.outcome`, `Unjar.Returns` — how a computation ends, and that it returns;
* `Unjar.Keeps` — a computation moves the state along a relation, whether it returns or fails;
* `Unjar.FailsOnly` — which faults a computation ends with, if an invariant holds where it starts.

Main results:

* `Unjar.returns_bind`, `Unjar.returns_tryCatch` — sequences, and faults that are caught;
* `Unjar.Returns.forM_invariant` — the invariant of a loop;
* `Unjar.FailsOnly.bind`, `Unjar.FailsOnly.forM` — the faults of sequences and loops.
-/

set_option autoImplicit false

namespace Unjar

variable {ε σ α β : Type}

/-! ### Computations that may fail -/

section

variable {e : Except ε α} {f : α → Except ε β} {a : α} {b : β}

theorem bind_eq_ok : e >>= f = .ok b ↔ ∃ a, e = .ok a ∧ f a = .ok b := by
  cases e with
  | error cause => simp [bind, Except.bind]
  | ok a => simp [bind, Except.bind]

theorem bind_eq_error {cause : ε} (h : e >>= f = .error cause) :
    e = .error cause ∨ ∃ a, e = .ok a ∧ f a = .error cause := by
  cases e with
  | error =>
      cases h
      exact .inl rfl
  | ok a => exact .inr ⟨a, rfl, h⟩

theorem eq_ok_of_toOption (h : e.toOption = some a) : e = .ok a := by
  cases e with
  | error => cases h
  | ok => exact congrArg _ (Option.some.inj h)

theorem exists_eq_ok_of_isSome (h : e.toOption.isSome = true) : ∃ a, e = .ok a := by
  obtain ⟨a, ha⟩ := Option.isSome_iff_exists.mp h
  exact ⟨a, eq_ok_of_toOption ha⟩

/-- What is evaluated of a result and of the state beside it shows that there is a result. -/
theorem exists_eq_ok_of_map {ending : Except ε α × σ} {g : α → σ → β}
    (h : (ending.1.toOption.map fun a => g a ending.2) = some b) :
    ∃ a s, ending = (.ok a, s) ∧ g a s = b := by
  obtain ⟨result, s⟩ := ending
  obtain ⟨a, ha, hb⟩ := Option.map_eq_some_iff.mp h
  obtain rfl := eq_ok_of_toOption ha
  exact ⟨a, s, rfl, hb⟩

variable {l : List α}

/-- A loop fails in one of its steps. -/
theorem exists_of_mapM_eq_error {cause : ε} (h : l.mapM f = .error cause) :
    ∃ a ∈ l, f a = .error cause := by
  induction l with
  | nil => cases h
  | cons a l ih =>
      rw [List.mapM_cons] at h
      rcases bind_eq_error h with h | ⟨b, -, h⟩
      · exact ⟨a, List.mem_cons_self, h⟩
      · rcases bind_eq_error h with h | ⟨bs, -, h⟩
        · obtain ⟨a', ha', h⟩ := ih h
          exact ⟨a', List.mem_cons_of_mem _ ha', h⟩
        · cases h

/-- What a loop returns comes from its steps. -/
theorem exists_of_mapM_eq_ok {found : List β} (h : l.mapM f = .ok found) (hb : b ∈ found) :
    ∃ a ∈ l, f a = .ok b := by
  induction l generalizing found with
  | nil =>
      cases h
      cases hb
  | cons a l ih =>
      rw [List.mapM_cons] at h
      obtain ⟨first, hfirst, h⟩ := bind_eq_ok.mp h
      obtain ⟨others, hothers, h⟩ := bind_eq_ok.mp h
      cases h
      rcases List.mem_cons.mp hb with rfl | hb
      · exact ⟨a, List.mem_cons_self, hfirst⟩
      · obtain ⟨a', ha', h⟩ := ih hothers hb
        exact ⟨a', List.mem_cons_of_mem _ ha', h⟩

end

/-! ### How a computation with a state ends -/

/-- How a computation that starts in a state ends: its result or its fault, and the state. -/
def outcome (x : ExceptT ε (StateM σ) α) (s : σ) : Except ε α × σ := (x.run.run s).run

/-- **A computation returns** `a`, and the state goes from `s` to `s'`. -/
def Returns (x : ExceptT ε (StateM σ) α) (s : σ) (a : α) (s' : σ) : Prop :=
  outcome x s = (.ok a, s')

section

variable {x : ExceptT ε (StateM σ) α} {f : α → ExceptT ε (StateM σ) β} {s s' s'' : σ} {a a' : α}
  {b : β}

@[simp] theorem outcome_pure : outcome (pure a : ExceptT ε (StateM σ) α) s = (.ok a, s) := rfl

@[simp] theorem outcome_throw {e : ε} :
    outcome (throw e : ExceptT ε (StateM σ) α) s = (.error e, s) := rfl

@[simp] theorem outcome_get : outcome (get : ExceptT ε (StateM σ) σ) s = (.ok s, s) := rfl

@[simp] theorem outcome_set {t : σ} :
    outcome (set t : ExceptT ε (StateM σ) PUnit) s = (.ok ⟨⟩, t) := rfl

@[simp] theorem outcome_modify {g : σ → σ} :
    outcome (modify g : ExceptT ε (StateM σ) PUnit) s = (.ok ⟨⟩, g s) := rfl

@[simp] theorem outcome_modifyGet {g : σ → α × σ} :
    outcome (modifyGet g : ExceptT ε (StateM σ) α) s = (.ok (g s).1, (g s).2) := rfl

theorem outcome_bind :
    outcome (x >>= f) s = match outcome x s with
      | (.ok a, t) => outcome (f a) t
      | (.error e, t) => (.error e, t) := by
  simp only [outcome, ExceptT.run_bind, StateT.run_bind, Id.run_bind]
  rcases (x.run.run s).run with ⟨_ | a, t⟩ <;> rfl

theorem outcome_map {g : α → β} :
    outcome (g <$> x) s = ((outcome x s).1.map g, (outcome x s).2) := by
  rw [map_eq_pure_bind, outcome_bind]
  rcases outcome x s with ⟨_ | a, t⟩ <;> rfl

theorem outcome_tryCatch {h : ε → ExceptT ε (StateM σ) α} :
    outcome (tryCatch x h) s = match outcome x s with
      | (.ok a, t) => (.ok a, t)
      | (.error e, t) => outcome (h e) t := by
  simp only [outcome, ExceptT.run_tryCatch, StateT.run_bind, Id.run_bind]
  rcases (x.run.run s).run with ⟨_ | a, t⟩ <;> rfl

/-! ### Runs that return -/

theorem returns_pure :
    Returns (pure a : ExceptT ε (StateM σ) α) s a' s' ↔ a = a' ∧ s = s' := by
  simp [Returns]

theorem not_returns_throw {e : ε} :
    ¬Returns (throw e : ExceptT ε (StateM σ) α) s a s' := by
  simp [Returns]

theorem returns_set {t : σ} {u : PUnit} :
    Returns (set t : ExceptT ε (StateM σ) PUnit) s u s' ↔ t = s' := by
  simp [Returns]

theorem returns_modify {g : σ → σ} {u : PUnit} :
    Returns (modify g : ExceptT ε (StateM σ) PUnit) s u s' ↔ g s = s' := by
  simp [Returns]

theorem returns_modifyGet {g : σ → α × σ} :
    Returns (modifyGet g : ExceptT ε (StateM σ) α) s a s' ↔ g s = (a, s') := by
  simp [Returns, Prod.ext_iff]

/-- A sequence returns when both of its steps do. -/
theorem returns_bind :
    Returns (x >>= f) s b s'' ↔ ∃ a s', Returns x s a s' ∧ Returns (f a) s' b s'' := by
  simp only [Returns, outcome_bind]
  rcases outcome x s with ⟨_ | a, t⟩
  · simp
  · constructor
    · intro h
      exact ⟨a, t, rfl, h⟩
    · rintro ⟨a, t, h, hf⟩
      cases h
      exact hf

/-- What is read is the present state. -/
theorem returns_get_bind {f : σ → ExceptT ε (StateM σ) β} :
    Returns (get >>= f) s b s' ↔ Returns (f s) s b s' := by
  simp [Returns, outcome_bind]

theorem returns_modify_bind {g : σ → σ} {f : PUnit → ExceptT ε (StateM σ) β} :
    Returns (modify g >>= f) s b s' ↔ Returns (f ⟨⟩) (g s) b s' := by
  simp [Returns, outcome_bind]

theorem not_returns_bind_throw {e : ε} :
    ¬Returns (x >>= fun _ => (throw e : ExceptT ε (StateM σ) β)) s b s' := by
  rw [returns_bind]
  rintro ⟨_, _, -, h⟩
  exact not_returns_throw h

/-- Where faults are caught, either the computation returns or what is done about its fault. -/
theorem returns_tryCatch {h : ε → ExceptT ε (StateM σ) α} :
    Returns (tryCatch x h) s a s' ↔
      Returns x s a s' ∨ ∃ e t, outcome x s = (.error e, t) ∧ Returns (h e) t a s' := by
  simp only [Returns, outcome_tryCatch]
  rcases outcome x s with ⟨e | a, t⟩
  · constructor
    · intro hr
      exact .inr ⟨e, t, rfl, hr⟩
    · rintro (hr | ⟨e, t, he, hr⟩)
      · cases hr
      · cases he
        exact hr
  · simp

/-- Renaming faults does not make a computation return. -/
theorem returns_of_mapError {ε' : Type} {rename : ε → ε'}
    (h : ((outcome x s).1.mapError rename, (outcome x s).2) = (.ok a, s')) : Returns x s a s' := by
  rcases ho : outcome x s with ⟨e | b, t⟩
  · rw [ho] at h
    cases h
  · rw [ho] at h
    cases h
    exact ho

/-- **The invariant of a loop.**  It is told of the elements already done, so that it can say what
they amount to. -/
theorem Returns.forM_invariant {l : List α} {f : α → ExceptT ε (StateM σ) PUnit} {u : PUnit}
    (Inv : List α → σ → Prop)
    (step : ∀ done a s s' u, Inv done s → Returns (f a) s u s' → Inv (done ++ [a]) s')
    (h : Returns (l.forM f) s u s') (start : Inv [] s) : Inv l s' := by
  suffices ∀ done s, Inv done s → Returns (l.forM f) s u s' → Inv (done ++ l) s' from
    this [] s start h
  clear start h
  induction l with
  | nil =>
      intro done s hs h
      obtain ⟨-, rfl⟩ := returns_pure.mp h
      simpa using hs
  | cons a l ih =>
      intro done s hs h
      obtain ⟨u, t, ha, hl⟩ := returns_bind.mp h
      have ht : Inv (done ++ [a]) t := step done a s t u hs ha
      simpa using ih (done ++ [a]) t ht hl

end

/-! ### However a computation ends -/

/-- However a computation ends, the state has moved along `R`. -/
def Keeps (R : σ → σ → Prop) (x : ExceptT ε (StateM σ) α) : Prop := ∀ s, R s (outcome x s).2

section

variable {R : σ → σ → Prop} {x : ExceptT ε (StateM σ) α} {f : α → ExceptT ε (StateM σ) β}
  {h : ε → ExceptT ε (StateM σ) α}

theorem Keeps.of_returns {s s' : σ} {a : α} (hx : Keeps R x) (hr : Returns x s a s') : R s s' := by
  have hs := hx s
  rwa [show outcome x s = (.ok a, s') from hr] at hs

theorem Keeps.imp {R' : σ → σ → Prop} (hx : Keeps R x) (h : ∀ {s s'}, R s s' → R' s s') :
    Keeps R' x := fun s => h (hx s)

theorem Keeps.bind (trans : ∀ {s t u}, R s t → R t u → R s u) (hx : Keeps R x)
    (hf : ∀ a, Keeps R (f a)) : Keeps R (x >>= f) := by
  intro s
  have hs := hx s
  rw [outcome_bind]
  rcases hr : outcome x s with ⟨e | a, t⟩
  · rwa [hr] at hs
  · rw [hr] at hs
    exact trans hs (hf a t)

theorem Keeps.forM (refl : ∀ s, R s s) (trans : ∀ {s t u}, R s t → R t u → R s u)
    {f : α → ExceptT ε (StateM σ) PUnit} {l : List α} (hf : ∀ a ∈ l, Keeps R (f a)) :
    Keeps R (l.forM f) := by
  induction l with
  | nil => exact fun s => refl s
  | cons a l ih =>
      rw [List.forall_mem_cons] at hf
      exact hf.1.bind trans fun _ => ih hf.2

theorem Keeps.tryCatch (trans : ∀ {s t u}, R s t → R t u → R s u) (hx : Keeps R x)
    (hh : ∀ e, Keeps R (h e)) : Keeps R (tryCatch x h) := by
  intro s
  have hs := hx s
  rw [outcome_tryCatch]
  rcases hr : outcome x s with ⟨e | a, t⟩
  · rw [hr] at hs
    exact trans hs (hh e t)
  · rwa [hr] at hs

end

/-! ### Faults -/

/-- **Where an invariant holds**, a computation returns and the invariant still holds, or it fails with
a fault that is allowed. -/
def FailsOnly (Inv : σ → Prop) (Allowed : ε → Prop) (x : ExceptT ε (StateM σ) α) : Prop :=
  ∀ s, Inv s → match outcome x s with
    | (.ok _, t) => Inv t
    | (.error e, _) => Allowed e

section

variable {Inv : σ → Prop} {Allowed : ε → Prop} {x : ExceptT ε (StateM σ) α}
  {f : α → ExceptT ε (StateM σ) β}

theorem FailsOnly.bind (hx : FailsOnly Inv Allowed x) (hf : ∀ a, FailsOnly Inv Allowed (f a)) :
    FailsOnly Inv Allowed (x >>= f) := by
  intro s hs
  have ht := hx s hs
  rw [outcome_bind]
  rcases hr : outcome x s with ⟨e | a, t⟩
  · rwa [hr] at ht
  · rw [hr] at ht
    exact hf a t ht

theorem FailsOnly.forM {f : α → ExceptT ε (StateM σ) PUnit} {l : List α}
    (hf : ∀ a ∈ l, FailsOnly Inv Allowed (f a)) : FailsOnly Inv Allowed (l.forM f) := by
  induction l with
  | nil => exact fun s hs => hs
  | cons a l ih =>
      rw [List.forall_mem_cons] at hf
      exact hf.1.bind fun _ => ih hf.2

/-- A sequence fails in its first step, or in its second after the first has returned. -/
theorem outcome_bind_eq_error {s t : σ} {e : ε} (h : outcome (x >>= f) s = (.error e, t)) :
    outcome x s = (.error e, t) ∨
      ∃ a s', Returns x s a s' ∧ outcome (f a) s' = (.error e, t) := by
  rw [outcome_bind] at h
  rcases hr : outcome x s with ⟨cause | a, s'⟩
  · rw [hr] at h
    cases h
    exact .inl rfl
  · rw [hr] at h
    exact .inr ⟨a, s', hr, h⟩

end

end Unjar
