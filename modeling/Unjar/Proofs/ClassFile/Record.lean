import Unjar.Proofs.ClassFile.Layout

/-!
What a builder records of a session.

After any calls, whether they were answered or refused, the entries of the builder are consistent,
the names of the class are where the session began with them, every index that was answered
is that of its constant, and the fields and methods that were added are laid out in order.  A call
keeps this, and so does a whole session.

Main definitions:

* `Unjar.BuilderSession.Recorded` — what is recorded.

Main results:

* `Unjar.BuilderSession.run_perform`, `Unjar.BuilderSession.recorded_perform` — what a call adds,
  and that it keeps the record;
* `Unjar.BuilderSession.recorded_run` — **a session is recorded.**
-/

set_option autoImplicit false

namespace Unjar

open ConstantRequest Building

/-! ### Acts in general

These are told of any act: the kernel need not look into the one at hand. -/

namespace Building

theorem run_andThen_ok {α β : Type} {act : Building α} {b b' : ClassFileBuilder} {a : α} (c : β)
    (h : act.run.run b = (.ok a, b')) : (act >>= fun _ => pure c).run.run b = (.ok c, b') := by
  simp only [ExceptT.run_bind, StateT.run_bind, h]
  rfl

theorem run_andThen_error {α β : Type} {act : Building α} {b b' : ClassFileBuilder}
    {cause : OutOfRange} (c : β) (h : act.run.run b = (.error cause, b')) :
    (act >>= fun _ => pure c).run.run b = (.error cause, b') := by
  simp only [ExceptT.run_bind, StateT.run_bind, h]
  rfl

/-- What follows an act of which only the builder is needed. -/
theorem of_run_map_eq_ok {β : Type} (act : Building Unit) (b : ClassFileBuilder)
    (next : ClassFileBuilder → β) {c : β}
    (h : ((act.run.run b).1.map fun () => next (act.run.run b).2) = .ok c) :
    ∃ b', act.run.run b = (.ok (), b') ∧ next b' = c := by
  cases hrun : act.run.run b with
  | mk answer b' =>
      rw [hrun] at h
      cases answer with
      | error cause => cases h
      | ok => exact ⟨b', rfl, Except.ok.inj h⟩

end Building

theorem Building.Adds.map {α β : Type} {act : Building α} {P : α → List Entry → Prop} (f : α → β)
    (h : Adds act P) : Adds (f <$> act) fun b entries => ∃ a, P a entries ∧ f a = b := by
  rw [← bind_pure_comp]
  exact h.bind fun a _ _ => .pure (f a) fun _ => rfl

namespace BuilderSession

/-- **What a builder records of a session**, seen from a list of entries: its own or a longer
one. -/
structure Recorded (s : BuilderSession) (answers : List (BuilderCall × BuilderAnswer))
    (b : ClassFileBuilder) (entries : List Entry) : Prop where
  major_eq : b.major = s.major
  thisClass_eq : classIndex entries s.name = some b.thisClass
  superClass_eq : classIndexOrZero entries s.superName = some b.superClass
  interfaces_eq :
    List.Forall₂ (fun name i => classIndex entries name = some i) s.interfaces b.interfaces
  constants_eq : ∀ (r : ConstantRequest) (i : Nat),
    (BuilderCall.constant r, Except.ok (some i)) ∈ answers → r.indexIn entries = some i
  fields_laidOut :
    List.Forall₂ (FieldRequest.LaidOut entries) (answers.filterMap BuilderCall.field?) b.fields
  methods_laidOut :
    List.Forall₂ (MethodRequest.LaidOut entries) (answers.filterMap BuilderCall.method?) b.methods

variable {s : BuilderSession} {answers : List (BuilderCall × BuilderAnswer)} {b : ClassFileBuilder}

/-- The header of a class is recorded by the start of a session. -/
theorem recorded_header (hstart : (ClassFileBuilder.header s.name s.superName s.interfaces).run.run
      (.blank s.major) = (.ok (), b)) :
    Entry.Consistent b.entries ∧ ∀ later, s.Recorded [] b (b.entries ++ later) := by
  have hadds := (ClassFileBuilder.adds_classRef s.name).bind fun thisClass _ _ =>
    (ClassFileBuilder.adds_classRefOrZero s.superName).bind fun superClass _ _ =>
    (Adds.mapM fun name (_ : name ∈ s.interfaces) => ClassFileBuilder.adds_classRef name).bind
      fun interfaces _ _ => .pure (P := fun found _ => found = (thisClass, superClass, interfaces))
        (thisClass, superClass, interfaces) fun _ => rfl
  have hheader : ClassFileBuilder.header s.name s.superName s.interfaces = (do
      let thisClass ← ClassFileBuilder.classRef s.name
      let superClass ← ClassFileBuilder.classRefOrZero s.superName
      let interfaces ← s.interfaces.mapM ClassFileBuilder.classRef
      pure (thisClass, superClass, interfaces)) >>= fun found => modify fun b =>
        { b with thisClass := found.1, superClass := found.2.1, interfaces := found.2.2 } := by
    simp only [ClassFileBuilder.header, bind_assoc, pure_bind]
  rw [hheader] at hstart
  obtain ⟨more, hmore, ⟨found, htells, hrun⟩ | ⟨cause, hrun⟩⟩ :=
    ClassFileBuilder.run_bind_modify hadds (fun found b =>
      { b with thisClass := found.1, superClass := found.2.1, interfaces := found.2.2 })
      (.blank s.major)
  · rw [hrun] at hstart
    obtain rfl : _ = b := (Prod.mk.inj hstart).2
    refine ⟨hmore .nil, fun later => ?_⟩
    obtain ⟨thisClass, hthis, superClass, hsuper, interfaces, hinterfaces, rfl⟩ := htells later
    exact ⟨rfl, hthis, hsuper, hinterfaces, by simp, .nil, .nil⟩
  · rw [hrun] at hstart
    cases hstart

/-- One more call with its answer, where the builder got the members that were answered. -/
theorem Recorded.answered {entries entries' : List Entry} {call : BuilderCall}
    {answer : BuilderAnswer} {fields methods : List MemberLayout}
    (h : s.Recorded answers b entries)
    (hconstant : ∀ r i, call = .constant r → answer = .ok (some i) → r.indexIn entries = some i)
    (hfields : List.Forall₂ (FieldRequest.LaidOut entries)
      (BuilderCall.field? (call, answer)).toList fields)
    (hmethods : List.Forall₂ (MethodRequest.LaidOut entries)
      (BuilderCall.method? (call, answer)).toList methods) :
    s.Recorded (answers ++ [(call, answer)])
      { b with
        entries := entries', fields := b.fields ++ fields, methods := b.methods ++ methods }
      entries := by
  have hsingle {α : Type} (f : BuilderCall × BuilderAnswer → Option α) :
      [(call, answer)].filterMap f = (f (call, answer)).toList := by
    cases hf : f (call, answer) <;> simp [hf]
  refine ⟨h.major_eq, h.thisClass_eq, h.superClass_eq, h.interfaces_eq, ?_, ?_, ?_⟩
  · intro r i hr
    rcases List.mem_append.1 hr with hr | hr
    · exact h.constants_eq r i hr
    · obtain ⟨hcall, hanswer⟩ := Prod.mk.inj (List.mem_singleton.1 hr)
      exact hconstant r i hcall.symm hanswer.symm
  · rw [List.filterMap_append, hsingle]
    exact List.rel_append h.fields_laidOut hfields
  · rw [List.filterMap_append, hsingle]
    exact List.rel_append h.methods_laidOut hmethods

/-- What a call adds to a builder, and what its answer tells of that. -/
theorem run_perform (call : BuilderCall) (b : ClassFileBuilder) :
    ∃ more fields methods,
      (Entry.Consistent b.entries → Entry.Consistent (b.entries ++ more)) ∧
      (call.perform.run.run b).2 =
        { b with
          entries := b.entries ++ more
          fields := b.fields ++ fields
          methods := b.methods ++ methods } ∧
      ∀ later answer, (call.perform.run.run b).1 = answer →
        (∀ r i, call = .constant r → answer = .ok (some i) →
          r.indexIn (b.entries ++ more ++ later) = some i) ∧
        List.Forall₂ (FieldRequest.LaidOut (b.entries ++ more ++ later))
          (BuilderCall.field? (call, answer)).toList fields ∧
        List.Forall₂ (MethodRequest.LaidOut (b.entries ++ more ++ later))
          (BuilderCall.method? (call, answer)).toList methods := by
  cases call with
  | constant request =>
      obtain ⟨more, hmore, hstate, htells⟩ := (adds_place request).map some b
      refine ⟨more, [], [], hmore, by simp only [List.append_nil]; exact hstate, ?_⟩
      intro later answer hanswer
      refine ⟨?_, .nil, .nil⟩
      rintro r i hr rfl
      cases hr
      obtain ⟨i', hi', heq⟩ := htells (some i) hanswer later
      cases heq
      exact hi'
  | field f =>
      obtain ⟨more, hmore, ⟨field, hlaid, hrun⟩ | ⟨cause, hrun⟩⟩ :=
        ClassFileBuilder.run_addField f b
      · have hperform : (BuilderCall.field f).perform.run.run b = (.ok none,
            { b with entries := b.entries ++ more, fields := b.fields ++ [field] }) :=
          run_andThen_ok none hrun
        rw [hperform]
        refine ⟨more, [field], [], hmore, by simp, ?_⟩
        rintro later answer rfl
        exact ⟨fun _ _ h => (nomatch h), .cons (hlaid later) .nil, .nil⟩
      -- a field that is refused leaves its entries, but no row
      · have hperform : (BuilderCall.field f).perform.run.run b = (.error cause,
            { b with entries := b.entries ++ more }) :=
          run_andThen_error none hrun
        rw [hperform]
        refine ⟨more, [], [], hmore, by simp, ?_⟩
        rintro later answer rfl
        exact ⟨fun _ _ h => (nomatch h), .nil, .nil⟩
  | method m =>
      obtain ⟨more, hmore, ⟨method, hlaid, hrun⟩ | ⟨cause, hrun⟩⟩ :=
        ClassFileBuilder.run_addMethod m b
      · have hperform : (BuilderCall.method m).perform.run.run b = (.ok none,
            { b with entries := b.entries ++ more, methods := b.methods ++ [method] }) :=
          run_andThen_ok none hrun
        rw [hperform]
        refine ⟨more, [], [method], hmore, by simp, ?_⟩
        rintro later answer rfl
        exact ⟨fun _ _ h => (nomatch h), .nil, .cons (hlaid later) .nil⟩
      -- so does a method
      · have hperform : (BuilderCall.method m).perform.run.run b = (.error cause,
            { b with entries := b.entries ++ more }) :=
          run_andThen_error none hrun
        rw [hperform]
        refine ⟨more, [], [], hmore, by simp, ?_⟩
        rintro later answer rfl
        exact ⟨fun _ _ h => (nomatch h), .nil, .nil⟩

/-- **A call keeps the record.** -/
theorem recorded_perform (call : BuilderCall) (hentries : Entry.Consistent b.entries)
    (h : ∀ later, s.Recorded answers b (b.entries ++ later)) :
    Entry.Consistent (call.perform.run.run b).2.entries ∧
      ∀ later, s.Recorded (answers ++ [(call, (call.perform.run.run b).1)])
        (call.perform.run.run b).2 ((call.perform.run.run b).2.entries ++ later) := by
  obtain ⟨more, fields, methods, hmore, hstate, htells⟩ := run_perform call b
  rw [hstate]
  refine ⟨hmore hentries, fun later => ?_⟩
  obtain ⟨hconstant, hfields, hmethods⟩ := htells later _ rfl
  have hold : s.Recorded answers b (b.entries ++ more ++ later) := by
    rw [List.append_assoc]
    exact h (more ++ later)
  exact hold.answered hconstant hfields hmethods

/-- Calls one after the other keep the record. -/
theorem recorded_performAll (calls : List BuilderCall) (hentries : Entry.Consistent b.entries)
    (h : ∀ later, s.Recorded answers b (b.entries ++ later)) :
    Entry.Consistent (BuilderCall.performAll calls b).2.entries ∧
      ∀ later, s.Recorded (answers ++ (BuilderCall.performAll calls b).1)
        (BuilderCall.performAll calls b).2
        ((BuilderCall.performAll calls b).2.entries ++ later) := by
  induction calls generalizing b answers with
  | nil => exact ⟨hentries, by simpa [BuilderCall.performAll] using h⟩
  | cons call more ih =>
      obtain ⟨hentries', h'⟩ := recorded_perform call hentries h
      have := ih hentries' h'
      rwa [List.append_assoc] at this

/-- **A session is recorded** by the builder that it ends with. -/
theorem recorded_run (hrun : s.run = .ok (answers, b)) :
    Entry.Consistent b.entries ∧ s.Recorded answers b b.entries := by
  unfold run at hrun
  obtain ⟨b₀, hstart, hall⟩ := of_run_map_eq_ok
    (ClassFileBuilder.header s.name s.superName s.interfaces) (.blank s.major)
    (BuilderCall.performAll s.calls) hrun
  obtain ⟨hentries, h⟩ := recorded_header hstart
  obtain ⟨hentries', h'⟩ := recorded_performAll s.calls hentries h
  rw [hall] at hentries' h'
  exact ⟨hentries', by simpa using h' []⟩

end BuilderSession

end Unjar
