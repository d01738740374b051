import Unjar.Proofs.ClassFile.Reading
import Unjar.Proofs.ClassFile.Record

/-!
Parsing undoes building.

Whatever a builder was called for, and in whatever order, the class file that it lays out is read as
what it was called for.  The members that were laid out are opened first; then the record of the
session names the class file that the reader finds.

Main definitions:

* `Unjar.HandlerRequest.ReadAs`, `Unjar.FieldRequest.ReadAs`, `Unjar.MethodRequest.ReadAs` — a
  member of a class file is the one that was asked for;
* `Unjar.BuilderSession.ReadAs` — a class file is that of a session.

Main results:

* `Unjar.BuilderSession.exists_readAs` — the class file of a session;
* `Unjar.BuilderSession.parse_of_build` — **parsing undoes building.**
-/

set_option autoImplicit false

namespace Unjar

open ConstantRequest

/-! ### Members as they were asked for -/

/-- An index is that of a class, or zero where none is named; an empty name names none. -/
def ConstantPool.IsClassOrZero (pool : ConstantPool) (i : Nat) : Option Text → Prop
  | none | some [] => i = 0
  | some name => i ≠ 0 ∧ pool.className i = .ok (Text.codePoints name)

/-- A row of a handler table is the one that was asked for. -/
structure HandlerRequest.ReadAs (pool : ConstantPool) (h : HandlerRequest) (row : Handler) :
    Prop where
  start_eq : h.start = row.start
  stop_eq : h.stop = row.stop
  handler_eq : h.handler = row.handler
  catchType_eq : pool.IsClassOrZero row.catchType h.catchType

/-- A field is the one that was asked for. -/
structure FieldRequest.ReadAs (f : FieldRequest) (member : Member) : Prop where
  access_eq : f.access = member.access
  name_eq : member.name = Text.codePoints f.name
  descriptor_eq : member.descriptor = Text.codePoints f.descriptor

/-- **A method is the one that was asked for**, with its code, its handlers and its exceptions. -/
structure MethodRequest.ReadAs (classFile : ClassFile) (m : MethodRequest) (member : Member) :
    Prop where
  access_eq : m.access = member.access
  name_eq : member.name = Text.codePoints m.name
  descriptor_eq : member.descriptor = Text.codePoints m.descriptor
  code_eq : match m.code with
    | none => ClassFile.codeOf member = .ok none
    | some bytes => ∃ code, ClassFile.codeOf member = .ok (some code) ∧ code.bytes = bytes ∧
        List.Forall₂ (HandlerRequest.ReadAs classFile.pool) m.handlers code.handlers
  exceptions_eq : classFile.exceptionsOf member = .ok (m.exceptions.map Text.codePoints)

/-! ### From the layout to the member -/

variable {entries : List Entry}

theorem ConstantPool.isClassOrZero {name : Option Text} {i : Nat}
    (h : classIndexOrZero entries name = some i) :
    (ConstantPool.ofEntries entries).IsClassOrZero i name := by
  match name, h with
  | none, h => exact (Option.some.inj h).symm
  | some [], h => exact (Option.some.inj h).symm
  | some (c :: name), h =>
      have hfound := className_eq_ok h
      refine ⟨?_, hfound⟩
      rintro rfl
      obtain ⟨j, hget, -⟩ := of_className_eq_ok hfound
      cases hget

theorem HandlerRequest.LaidOut.readAs {h : HandlerRequest} {row : Handler}
    (hlaid : h.LaidOut entries row) : h.ReadAs (.ofEntries entries) row :=
  ⟨hlaid.start_eq, hlaid.stop_eq, hlaid.handler_eq, ConstantPool.isClassOrZero hlaid.catchType_eq⟩

/-- The attribute that holds the code of a method, as a reader finds it. -/
theorem MethodRequest.CodeLaidOut.exists_readAs {m : MethodRequest} {layouts : List (Nat × Bytes)}
    (h : m.CodeLaidOut entries layouts) :
    ∃ attributes, List.Forall₂ (AttributeReadAs (.ofEntries entries)) layouts attributes ∧
      match m.code with
      | none => attributes = []
      | some bytes => ∃ body code, attributes = [(Name.ofString "Code", body)] ∧
          Code.parse body = .ok code ∧ code.bytes = bytes ∧
          List.Forall₂ (HandlerRequest.ReadAs (.ofEntries entries)) m.handlers code.handlers := by
  unfold MethodRequest.CodeLaidOut at h
  cases hcode : m.code with
  | none =>
      rw [hcode] at h
      exact ⟨[], h ▸ .nil, rfl⟩
  | some bytes =>
      rw [hcode] at h
      obtain ⟨index, rows, rfl, hname, hrows, hsize, hcount⟩ := h
      have hfit : ∀ row ∈ rows, row.Fits :=
        ((List.forall₂_and_left rows m.handlers).1 (hrows.flip.imp fun row request hlaid =>
          (⟨hlaid.fits, trivial⟩ : row.Fits ∧ True))).1
      have hparse : Code.parse (Code.encode ⟨8, 8, bytes, rows⟩) = .ok ⟨8, 8, bytes, rows⟩ :=
        Code.parse_encode (by simp) (by simp) hsize hcount hfit
      exact ⟨[_], .cons ⟨ConstantPool.utf8_eq_ok hname, rfl⟩ .nil, _, _, rfl, hparse, rfl,
        hrows.imp fun _ _ => HandlerRequest.LaidOut.readAs⟩

/-- The attribute that holds the exceptions of a method, as a reader finds it. -/
theorem MethodRequest.ExceptionsLaidOut.exists_readAs {m : MethodRequest}
    {layouts : List (Nat × Bytes)} (h : m.ExceptionsLaidOut entries layouts) :
    ∃ attributes, List.Forall₂ (AttributeReadAs (.ofEntries entries)) layouts attributes ∧
      match m.exceptions with
      | [] => attributes = []
      | exceptions => ∃ indices,
          attributes = [(Name.ofString "Exceptions", encodeExceptions indices)] ∧
          indices.length < 0x10000 ∧
          List.Forall₂ (fun (i : Nat) name => i < 0x10000 ∧
            (ConstantPool.ofEntries entries).className i = .ok name)
            indices (exceptions.map Text.codePoints) := by
  unfold MethodRequest.ExceptionsLaidOut at h
  cases hexceptions : m.exceptions with
  | nil =>
      rw [hexceptions] at h
      exact ⟨[], h ▸ .nil, rfl⟩
  | cons name names =>
      rw [hexceptions] at h
      obtain ⟨index, indices, rfl, hname, hindices, hcount⟩ := h
      refine ⟨[_], .cons ⟨ConstantPool.utf8_eq_ok hname, rfl⟩ .nil, indices, rfl, hcount, ?_⟩
      rw [List.forall₂_map_right_iff]
      exact hindices.flip.imp fun i name hi => ⟨hi.2, ConstantPool.className_eq_ok hi.1⟩

theorem FieldRequest.LaidOut.exists_readAs {f : FieldRequest} {layout : MemberLayout}
    (h : f.LaidOut entries layout) :
    ∃ member, layout.ReadAs (.ofEntries entries) member ∧ f.ReadAs member := by
  refine ⟨⟨layout.access, Text.codePoints f.name, Text.codePoints f.descriptor, []⟩, ?_,
    h.access_eq, rfl, rfl⟩
  refine ⟨rfl, ConstantPool.utf8_eq_ok h.name_eq, ConstantPool.utf8_eq_ok h.descriptor_eq, ?_⟩
  rw [h.attributes_eq]
  exact .nil

/-- **A method that was laid out is read as the method that was asked for.** -/
theorem MethodRequest.LaidOut.exists_readAs {m : MethodRequest} {layout : MemberLayout}
    (h : m.LaidOut entries layout) :
    ∃ member, layout.ReadAs (.ofEntries entries) member ∧
      ∀ classFile : ClassFile, classFile.pool = .ofEntries entries → m.ReadAs classFile member := by
  obtain ⟨code, exceptions, hattributes, hcode, hexceptions⟩ := h.attributes_eq
  obtain ⟨codeRead, hcodeRead, hcode⟩ := hcode.exists_readAs
  obtain ⟨exceptionsRead, hexceptionsRead, hexceptions⟩ := hexceptions.exists_readAs
  refine ⟨⟨layout.access, Text.codePoints m.name, Text.codePoints m.descriptor,
    codeRead ++ exceptionsRead⟩, ?_, ?_⟩
  · refine ⟨rfl, ConstantPool.utf8_eq_ok h.name_eq, ConstantPool.utf8_eq_ok h.descriptor_eq, ?_⟩
    rw [hattributes]
    exact List.rel_append hcodeRead hexceptionsRead
  · intro classFile hpool
    refine ⟨h.access_eq, rfl, rfl, ?_, ?_⟩
    -- the first attribute of a name is taken, so the other one must not have it
    · have hother : exceptionsRead.lookup (Name.ofString "Code") = none := by
        cases hm : m.exceptions with
        | nil =>
            rw [hm] at hexceptions
            rw [hexceptions]
            rfl
        | cons name names =>
            rw [hm] at hexceptions
            obtain ⟨indices, rfl, -⟩ := hexceptions
            rfl
      cases hm : m.code with
      | none =>
          rw [hm] at hcode
          unfold ClassFile.codeOf Attributes.first?
          simp only [hcode, List.nil_append, hother]
          rfl
      | some bytes =>
          rw [hm] at hcode
          obtain ⟨body, code, rfl, hparse, hbytes, hhandlers⟩ := hcode
          rw [hpool]
          refine ⟨code, ?_, hbytes, hhandlers⟩
          change some <$> Code.parse body = _
          rw [hparse]
          rfl
    · have hother : codeRead.lookup (Name.ofString "Exceptions") = none := by
        cases hm : m.code with
        | none =>
            rw [hm] at hcode
            rw [hcode]
            rfl
        | some bytes =>
            rw [hm] at hcode
            obtain ⟨body, code, rfl, -⟩ := hcode
            rfl
      unfold ClassFile.exceptionsOf Attributes.first?
      rw [List.lookup_append, hother, Option.none_or]
      cases hm : m.exceptions with
      | nil =>
          rw [hm] at hexceptions
          rw [hexceptions]
          rfl
      | cons name names =>
          rw [hm] at hexceptions
          obtain ⟨indices, rfl, hcount, hindices⟩ := hexceptions
          rw [hpool]
          exact run'_encodeExceptions hcount hindices

/-! ### The class file of a session -/

/-- **A class file is that of a session**: the members are those that were asked for and not
refused, in order, and every index that was answered is that of its constant. -/
structure BuilderSession.ReadAs (s : BuilderSession)
    (answers : List (BuilderCall × BuilderAnswer)) (classFile : ClassFile) : Prop where
  major_eq : s.major = classFile.major
  thisClass_eq : classFile.thisClass = Text.codePoints s.name
  superClass_eq : classFile.superClass = match s.superName with
    | none | some [] => none
    | some name => some (Text.codePoints name)
  interfaces_eq : classFile.interfaces = s.interfaces.map Text.codePoints
  fields_eq : List.Forall₂ FieldRequest.ReadAs (answers.filterMap BuilderCall.field?)
    classFile.fields
  methods_eq : List.Forall₂ (MethodRequest.ReadAs classFile)
    (answers.filterMap BuilderCall.method?) classFile.methods
  constants_eq : ∀ (r : ConstantRequest) (i : Nat),
    (BuilderCall.constant r, Except.ok (some i)) ∈ answers → r.IsAt classFile.pool i

/-- Related rows that each have a reading have readings row by row. -/
theorem exists_forall₂ {α β γ : Type} {R : α → β → Prop} {S : β → γ → Prop} {T : α → γ → Prop}
    {as : List α} {bs : List β} (h : List.Forall₂ R as bs)
    (hstep : ∀ a b, R a b → ∃ c, S b c ∧ T a c) :
    ∃ cs, List.Forall₂ S bs cs ∧ List.Forall₂ T as cs := by
  induction h with
  | nil => exact ⟨[], .nil, .nil⟩
  | cons hab _ ih =>
      obtain ⟨c, hb, ha⟩ := hstep _ _ hab
      obtain ⟨cs, hbs, has⟩ := ih
      exact ⟨c :: cs, .cons hb hbs, .cons ha has⟩

namespace BuilderSession

variable {s : BuilderSession} {answers : List (BuilderCall × BuilderAnswer)}
  {b : ClassFileBuilder} {bytes : Bytes}

theorem Recorded.fits (hentries : Entry.Consistent b.entries)
    (h : s.Recorded answers b b.entries) : b.Fits := by
  refine ⟨hentries.fits, ?_, ?_⟩
  · exact ((List.forall₂_and_left _ _).1 (h.fields_laidOut.flip.imp fun layout f hlaid =>
      (⟨hlaid.fits, trivial⟩ : layout.Fits ∧ True))).1
  · exact ((List.forall₂_and_left _ _).1 (h.methods_laidOut.flip.imp fun layout m hlaid =>
      (⟨hlaid.fits, trivial⟩ : layout.Fits ∧ True))).1

/-- **The class file of a session**, in terms of the builder and of what it was called for. -/
theorem exists_readAs (h : s.Recorded answers b b.entries) (hbuild : b.build = .ok bytes) :
    ∃ classFile, b.ReadAs classFile ∧ s.ReadAs answers classFile := by
  obtain ⟨major, hsmall, -⟩ := ClassFileBuilder.of_build_eq_ok hbuild
  obtain ⟨fields, hfields, hfields'⟩ := exists_forall₂ h.fields_laidOut
    fun _ _ => FieldRequest.LaidOut.exists_readAs
  obtain ⟨methods, hmethods, hmethods'⟩ := exists_forall₂ h.methods_laidOut
    fun _ _ => MethodRequest.LaidOut.exists_readAs
  have hinterfaces : List.Forall₂ (fun (i : Nat) name => i < 0x10000 ∧
      (ConstantPool.ofEntries b.entries).className i = .ok name)
      b.interfaces (s.interfaces.map Text.codePoints) := by
    rw [List.forall₂_map_right_iff]
    refine h.interfaces_eq.flip.imp fun i name hi => ⟨?_, ConstantPool.className_eq_ok hi⟩
    obtain ⟨j, -, hj⟩ := Option.bind_eq_some_iff.1 hi
    exact Nat.lt_trans (Entry.lt_of_indexIn hj) hsmall.nextIndex_lt
  have hsuper := ConstantPool.isClassOrZero h.superClass_eq
  refine ⟨⟨0, major, .ofEntries b.entries, ClassFileBuilder.publicClass, Text.codePoints s.name,
    s.superName.bind fun name => if name = [] then none else some (Text.codePoints name),
    s.interfaces.map Text.codePoints, fields, methods, []⟩, ?_, ?_⟩
  · refine ⟨rfl, hsmall.major_eq, rfl, rfl, ConstantPool.className_eq_ok h.thisClass_eq, ?_,
      hinterfaces, hfields, hmethods, rfl⟩
    match s.superName, hsuper with
    | none, hsuper => exact .inl ⟨hsuper, rfl⟩
    | some [], hsuper => exact .inl ⟨hsuper, rfl⟩
    | some (c :: name), hsuper => exact .inr ⟨hsuper.1, _, hsuper.2, rfl⟩
  · refine ⟨h.major_eq.symm.trans hsmall.major_eq, rfl, ?_, rfl, hfields',
      hmethods'.imp fun _ _ hm => hm _ rfl, fun r i hr => isAt_of_indexIn (h.constants_eq r i hr)⟩
    match s.superName with
    | none => rfl
    | some [] => rfl
    | some (c :: name) => rfl

/-- The class file of a session is what its bytes are read as. -/
theorem exists_parse (hrun : s.run = .ok (answers, b)) (hbuild : b.build = .ok bytes) :
    ∃ classFile, ClassFile.parse bytes = .ok classFile ∧ b.ReadAs classFile ∧
      s.ReadAs answers classFile := by
  obtain ⟨hentries, hrecorded⟩ := recorded_run hrun
  obtain ⟨classFile, hread, hsession⟩ := exists_readAs hrecorded hbuild
  exact ⟨classFile, ClassFileBuilder.parse_build (hrecorded.fits hentries) hbuild hread, hread,
    hsession⟩

/-- Equal requests are answered alike, and different ones differently. -/
theorem index_eq_iff (hrun : s.run = .ok (answers, b)) {r r' : ConstantRequest} {i i' : Nat}
    (h : (BuilderCall.constant r, Except.ok (some i)) ∈ answers)
    (h' : (BuilderCall.constant r', Except.ok (some i')) ∈ answers) : i = i' ↔ r = r' := by
  obtain ⟨-, hrecorded⟩ := recorded_run hrun
  have hi := hrecorded.constants_eq r i h
  have hi' := hrecorded.constants_eq r' i' h'
  constructor
  · rintro rfl
    exact (isAt_of_indexIn hi).unique (isAt_of_indexIn hi')
  · rintro rfl
    exact Option.some.inj (hi.symm.trans hi')

/-- **Parsing undoes building.**  Whatever a session asks for, the bytes that it ends with are read
as the class file of the session, and the indices that it was answered tell its constants apart. -/
theorem parse_of_build (hrun : s.run = .ok (answers, b)) (hbuild : b.build = .ok bytes) :
    ∃ classFile, ClassFile.parse bytes = .ok classFile ∧ s.ReadAs answers classFile ∧
      ∀ (r r' : ConstantRequest) (i i' : Nat),
        (BuilderCall.constant r, Except.ok (some i)) ∈ answers →
        (BuilderCall.constant r', Except.ok (some i')) ∈ answers → (i = i' ↔ r = r') := by
  obtain ⟨classFile, hparse, -, hread⟩ := exists_parse hrun hbuild
  exact ⟨classFile, hparse, hread, fun r r' i i' => index_eq_iff hrun⟩

/-- A session with a long constant before its members, and with an index that is asked for again. -/
def sample : BuilderSession where
  name := "p/A".toList
  superName := some "B".toList
  interfaces := ["I".toList]
  major := 52
  calls := [.constant (.long (-5)), .field ⟨"f".toList, "J".toList, 2⟩,
    .constant (.utf8 "f".toList),
    .method ⟨"m".toList, "()V".toList, some [0xB1], ["E".toList],
      [⟨0, 1, 0, some "X".toList⟩, ⟨0, 1, 0, none⟩], 1⟩]

theorem parse_of_build_sample :
    ∃ answers b bytes classFile, sample.run = .ok (answers, b) ∧ b.build = .ok bytes ∧
      answers.map Prod.snd = [.ok (some 7), .ok none, .ok (some 9), .ok none] ∧
      ClassFile.parse bytes = .ok classFile ∧ sample.ReadAs answers classFile := by
  have hbuilt : (sample.run.toOption.bind fun found => found.2.build.toOption).isSome = true := by
    decide +kernel
  have hanswers : (sample.run.toOption.map fun found => found.1.map Prod.snd) =
      some [.ok (some 7), .ok none, .ok (some 9), .ok none] := by
    decide +kernel
  obtain ⟨bytes, hbuilt⟩ := Option.isSome_iff_exists.1 hbuilt
  obtain ⟨⟨answers, b⟩, hrun, hbuild⟩ := Option.bind_eq_some_iff.1 hbuilt
  rw [hrun] at hanswers
  obtain ⟨classFile, hparse, hread, -⟩ :=
    parse_of_build (eq_ok_of_toOption hrun) (eq_ok_of_toOption hbuild)
  exact ⟨answers, b, bytes, classFile, eq_ok_of_toOption hrun, eq_ok_of_toOption hbuild,
    Option.some.inj hanswers, hparse, hread⟩

end BuilderSession

end Unjar
