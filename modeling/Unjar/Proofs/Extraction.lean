import Unjar.References
import Unjar.Proofs.Assembly
import Unjar.Proofs.ClassFile.RoundTrip

/-!
The types that a class mentions are found, and no others.

What a class mentions is stated of the session in which it was built: of its names, of the
descriptors of its members, of the constants to which its instructions refer and of the classes that
its handlers catch.  Extracting the references of the bytes that were built finds exactly those.

Main definitions:

* `Unjar.ConstantRequest.Mentions`, `Unjar.Assembly.Mentions`, `Unjar.MethodRequest.Mentions`,
  `Unjar.BuilderSession.Mentions` — what is mentioned.

Main results:

* `Unjar.ClassReferences.ofInstructions_eq`, `Unjar.ClassReferences.ofMethod_eq` — what is found in
  code and in a method;
* `Unjar.ClassReferences.extract_of_build` — **extraction is exact.**
-/

set_option autoImplicit false

namespace Unjar

open ConstantRequest

/-! ### Sets of type names -/

namespace TypeSet

theorem mem_insertInto {n m : Name} {l : List Name} : m ∈ insertInto n l ↔ m = n ∨ m ∈ l := by
  induction l with
  | nil => simp [insertInto]
  | cons k r ih =>
      unfold insertInto
      split
      · exact List.mem_cons
      · split
        · next heq =>
          subst heq
          simp
        · rw [List.mem_cons, ih, List.mem_cons]
          constructor
          · rintro (h | h | h)
            · exact .inr (.inl h)
            · exact .inl h
            · exact .inr (.inr h)
          · rintro (h | h | h)
            · exact .inr (.inl h)
            · exact .inl h
            · exact .inr (.inr h)

theorem mem_insertAll {s : TypeSet} {n : Name} {names : List Name} :
    n ∈ (s.insertAll names).toList ↔ n ∈ s.toList ∨ n ∈ names := by
  unfold insertAll
  induction names generalizing s with
  | nil => simp
  | cons m names ih =>
      rw [List.foldl_cons, ih, insert, mem_insertInto, List.mem_cons]
      constructor
      · rintro ((h | h) | h)
        · exact .inr (.inl h)
        · exact .inl h
        · exact .inr (.inr h)
      · rintro (h | h | h)
        · exact .inl (.inr h)
        · exact .inl (.inl h)
        · exact .inr h

theorem mem_ofList {n : Name} {names : List Name} : n ∈ (ofList names).toList ↔ n ∈ names := by
  unfold ofList
  rw [mem_insertAll]
  simp [empty]

end TypeSet

/-! ### What is mentioned -/

/-- A constant names a class where an instruction refers to it. -/
def ConstantRequest.Mentions (n : Name) : ConstantRequest → Prop
  | classRef name => Descriptor.ClassNames (Text.codePoints name) n
  | memberRef .field owner _ descriptor =>
    Descriptor.ClassNames (Text.codePoints owner) n ∨
      Descriptor.FieldNames (Text.codePoints descriptor) n
  | memberRef .method owner _ descriptor | memberRef .interfaceMethod owner _ descriptor =>
    Descriptor.ClassNames (Text.codePoints owner) n ∨
      Descriptor.MethodNames (Text.codePoints descriptor) n
  | invokeDynamic _ descriptor _ => Descriptor.MethodNames (Text.codePoints descriptor) n
  | _ => False

/-- An instruction names a class: through the constant to which it refers, or by loading the
constant of a class. -/
def Assembly.Mentions (entries : List Entry) (n : Name) : Assembly → Prop
  | .reference _ target _ => target.Mentions n
  | .load index | .loadWide index =>
    ∃ name, classIndex entries name = some index ∧ Descriptor.ClassNames (Text.codePoints name) n
  | _ => False

/-- A handler names a class that it catches. -/
def HandlerRequest.Catches (row : HandlerRequest) (n : Name) : Prop :=
  ∃ name, row.catchType = some name ∧ Descriptor.ClassNames (Text.codePoints name) n

/-- A method with the given instructions names a class. -/
inductive MethodRequest.Mentions (entries : List Entry) (listing : List Assembly)
    (m : MethodRequest) : Name → Prop
  | signature {n : Name} (h : Descriptor.MethodNames (Text.codePoints m.descriptor) n) :
      m.Mentions entries listing n
  | exception {name : Text} (h : name ∈ m.exceptions) :
      m.Mentions entries listing (Text.codePoints name).dotted
  | instruction {a : Assembly} {n : Name} (hcode : m.code.isSome) (ha : a ∈ listing)
      (h : a.Mentions entries n) : m.Mentions entries listing n
  | handler {row : HandlerRequest} {n : Name} (hcode : m.code.isSome) (hrow : row ∈ m.handlers)
      (h : row.Catches n) : m.Mentions entries listing n

/-- **A class names another**, or itself: the members are those that were asked for and not
refused. -/
inductive BuilderSession.Mentions (s : BuilderSession)
    (answers : List (BuilderCall × BuilderAnswer)) (entries : List Entry)
    (listing : MethodRequest → List Assembly) : Name → Prop
  | owner : s.Mentions answers entries listing (Text.codePoints s.name).dotted
  | superclass {name : Text} (h : s.superName = some name) (hne : name ≠ []) :
      s.Mentions answers entries listing (Text.codePoints name).dotted
  | interface {name : Text} (h : name ∈ s.interfaces) :
      s.Mentions answers entries listing (Text.codePoints name).dotted
  | field {f : FieldRequest} {n : Name} (hf : f ∈ answers.filterMap BuilderCall.field?)
      (h : Descriptor.FieldNames (Text.codePoints f.descriptor) n) :
      s.Mentions answers entries listing n
  | method {m : MethodRequest} {n : Name} (hm : m ∈ answers.filterMap BuilderCall.method?)
      (h : m.Mentions entries (listing m) n) : s.Mentions answers entries listing n

/-! ### What is found -/

namespace ClassReferences

variable {entries : List Entry}

/-- The classes that an operand refers to, if there is one. -/
def ofOperand? (pool : ConstantPool) : Option Operand → Except Malformed (List Name)
  | some operand => ofOperand pool operand
  | none => pure []

/-- A reference finds the classes of its constant. -/
theorem ofOperand?_referenceTo {target : ConstantRequest} {index : Nat}
    (hindex : target.indexIn entries = some index) :
    ∃ names, ofOperand? (.ofEntries entries) (Assembly.referenceTo index target) = .ok names ∧
      ∀ n, n ∈ names ↔ target.Mentions n := by
  have hat := isAt_of_indexIn hindex
  cases target with
  | classRef name =>
      have hname : (ConstantPool.ofEntries entries).className index = .ok (Text.codePoints name) :=
        hat
      refine ⟨(Descriptor.ofClass (Text.codePoints name)).toList, ?_, fun n => ?_⟩
      · simp only [Assembly.referenceTo, ofOperand?, ofOperand, hname]
        rfl
      · rw [Option.mem_toList]
        exact Descriptor.ofClass_eq_some
  | memberRef kind owner name descriptor =>
      obtain ⟨-, href⟩ := hat
      cases kind with
      | field =>
          refine ⟨(Descriptor.ofClass (Text.codePoints owner)).toList ++
            (Descriptor.ofField (Text.codePoints descriptor)).toList, ?_, fun n => ?_⟩
          · simp only [Assembly.referenceTo, ofOperand?, ofOperand, href]
            rfl
          · rw [List.mem_append, Option.mem_toList, Option.mem_toList]
            exact or_congr Descriptor.ofClass_eq_some Descriptor.ofField_eq_some
      | _ =>
          refine ⟨(Descriptor.ofClass (Text.codePoints owner)).toList ++
            Descriptor.ofMethod (Text.codePoints descriptor), ?_, fun n => ?_⟩
          · simp only [Assembly.referenceTo, ofOperand?, ofOperand, href]
            rfl
          · rw [List.mem_append, Option.mem_toList]
            exact or_congr Descriptor.ofClass_eq_some Descriptor.mem_ofMethod
  | invokeDynamic name descriptor bootstrap =>
      obtain ⟨i, j, -, -, -, hdescriptor⟩ := hat
      refine ⟨Descriptor.ofMethod (Text.codePoints descriptor), ?_, fun n =>
        Descriptor.mem_ofMethod⟩
      simp only [Assembly.referenceTo, ofOperand?, ofOperand, hdescriptor]
      rfl
  | utf8 value => exact ⟨[], rfl, fun n => by simp [ConstantRequest.Mentions]⟩
  | string value => exact ⟨[], rfl, fun n => by simp [ConstantRequest.Mentions]⟩
  | integer value => exact ⟨[], rfl, fun n => by simp [ConstantRequest.Mentions]⟩
  | long value => exact ⟨[], rfl, fun n => by simp [ConstantRequest.Mentions]⟩
  | nameAndType name descriptor => exact ⟨[], rfl, fun n => by simp [ConstantRequest.Mentions]⟩

/-- A constant that is loaded names its class, if it is one. -/
theorem ofOperand_constant (hentries : Entry.Consistent entries) (index : Nat) :
    ∃ names, ofOperand (.ofEntries entries) (.constant index) = .ok names ∧
      ∀ n, n ∈ names ↔ ∃ name, classIndex entries name = some index ∧
        Descriptor.ClassNames (Text.codePoints name) n := by
  unfold ofOperand
  by_cases htag : (ConstantPool.ofEntries entries).tag? index = some 7
  · obtain ⟨name, hname⟩ := ConstantPool.exists_classIndex_of_tag? hentries htag
    refine ⟨(Descriptor.ofClass (Text.codePoints name)).toList, ?_, fun n => ?_⟩
    · simp only [htag, if_true, ConstantPool.className_eq_ok hname]
      rfl
    · rw [Option.mem_toList, Descriptor.ofClass_eq_some]
      constructor
      · intro h
        exact ⟨name, hname, h⟩
      · rintro ⟨name', hname', h⟩
        have hat : (classRef name).IsAt (.ofEntries entries) index :=
          ConstantPool.className_eq_ok hname
        have hat' : (classRef name').IsAt (.ofEntries entries) index :=
          ConstantPool.className_eq_ok hname'
        cases hat.unique hat'
        exact h
  · refine ⟨[], by simp only [htag, if_false]; rfl, fun n => ?_⟩
    constructor
    · intro h
      cases h
    · rintro ⟨name, hname, -⟩
      exact absurd (ConstantPool.tag?_of_classIndex hname) htag

/-- An operand finds the classes that its instruction names. -/
theorem ofOperand?_eq (hentries : Entry.Consistent entries) {a : Assembly}
    {operand : Option Operand} (h : Assembly.OperandIs entries operand a) :
    ∃ names, ofOperand? (.ofEntries entries) operand = .ok names ∧
      ∀ n, n ∈ names ↔ a.Mentions entries n := by
  have hnone : ∃ names, ofOperand? (.ofEntries entries) none = .ok names ∧
      ∀ n, n ∈ names ↔ False := ⟨[], rfl, by simp⟩
  cases a with
  | reference opcode target behind =>
      obtain ⟨index, hindex, rfl⟩ := h
      exact ofOperand?_referenceTo hindex
  | load index =>
      obtain rfl : operand = _ := h
      exact ofOperand_constant hentries index
  | loadWide index =>
      obtain rfl : operand = _ := h
      exact ofOperand_constant hentries index
  | _ =>
      obtain rfl : operand = _ := h
      exact hnone

/-- **What is found in a listing**: the classes that its instructions name. -/
theorem ofInstructions_eq (hentries : Entry.Consistent entries) {listing : List Assembly}
    {instructions : List Instruction}
    (h : List.Forall₂ (fun (a : Assembly) (i : Instruction) =>
      Assembly.OperandIs entries i.operand? a) listing instructions) :
    ∃ names, ofInstructions (.ofEntries entries) instructions = .ok names ∧
      ∀ n, n ∈ names ↔ ∃ a ∈ listing, a.Mentions entries n := by
  induction h with
  | nil => exact ⟨[], rfl, by simp⟩
  | @cons a i listing instructions hfirst _ ih =>
      obtain ⟨here, hhere, hfound⟩ := ofOperand?_eq hentries hfirst
      obtain ⟨behind, hbehind, hmore⟩ := ih
      refine ⟨here ++ behind, ?_, fun n => ?_⟩
      · have hstep : ofInstructions (.ofEntries entries) (i :: instructions) = (do
            let here ← ofOperand? (.ofEntries entries) i.operand?
            let behind ← ofInstructions (.ofEntries entries) instructions
            pure (here ++ behind)) := by
          rw [ofInstructions]
          cases i.operand? <;> rfl
        rw [hstep, hhere, hbehind]
        rfl
      · rw [List.mem_append, hfound, hmore, List.exists_mem_cons_iff]

/-- A catch type finds the classes that it names; zero finds none. -/
theorem ofClassOrZero_eq {pool : ConstantPool} {i : Nat} {name : Option Text}
    (h : pool.IsClassOrZero i name) :
    ∃ names, (if i = 0 then pure [] else do
        let name ← pool.className i
        pure (Descriptor.ofClass name).toList : Except Malformed (List Name)) = .ok names ∧
      ∀ n, n ∈ names ↔ ∃ t, name = some t ∧ Descriptor.ClassNames (Text.codePoints t) n := by
  match name, h with
  | none, h =>
      obtain rfl : i = 0 := h
      exact ⟨[], rfl, by simp⟩
  | some [], h =>
      obtain rfl : i = 0 := h
      refine ⟨[], rfl, fun n => ?_⟩
      simp [Descriptor.ClassNames, Text.codePoints]
  | some (c :: t), ⟨hne, hname⟩ =>
      refine ⟨(Descriptor.ofClass (Text.codePoints (c :: t))).toList, ?_, fun n => ?_⟩
      · rw [if_neg hne, hname]
        rfl
      · rw [Option.mem_toList, Descriptor.ofClass_eq_some]
        simp

theorem ofHandlers_eq {pool : ConstantPool} {requests : List HandlerRequest}
    {rows : List Handler} (h : List.Forall₂ (HandlerRequest.ReadAs pool) requests rows) :
    ∃ names, ofHandlers pool rows = .ok names ∧
      ∀ n, n ∈ names ↔ ∃ request ∈ requests, request.Catches n := by
  induction h with
  | nil => exact ⟨[], rfl, by simp⟩
  | @cons request row requests rows hfirst _ ih =>
      obtain ⟨here, hhere, hfound⟩ := ofClassOrZero_eq hfirst.catchType_eq
      obtain ⟨behind, hbehind, hmore⟩ := ih
      refine ⟨here ++ behind, ?_, fun n => ?_⟩
      · have hstep : ofHandlers pool (row :: rows) = (do
            let here ← (if row.catchType = 0 then pure [] else do
              let name ← pool.className row.catchType
              pure (Descriptor.ofClass name).toList)
            let behind ← ofHandlers pool rows
            pure (here ++ behind)) := by
          rw [ofHandlers]
          by_cases hzero : row.catchType = 0 <;> simp [hzero]
        rw [hstep, hhere, hbehind]
        rfl
      · rw [List.mem_append, hfound, hmore, List.exists_mem_cons_iff]
        rfl

/-- What is found in the code of a method: the classes that its instructions and handlers name. -/
theorem ofCode_eq (hentries : Entry.Consistent entries) {code : Code} {listing : List Assembly}
    (hlisting : Assembly.Listing entries 0 listing code.bytes) {requests : List HandlerRequest}
    (hhandlers : List.Forall₂ (HandlerRequest.ReadAs (.ofEntries entries)) requests code.handlers) :
    ∃ names, ofCode (.ofEntries entries) code = .ok names ∧
      ∀ n, n ∈ names ↔ (∃ a ∈ listing, a.Mentions entries n) ∨
        ∃ request ∈ requests, request.Catches n := by
  obtain ⟨instructions, hwalk, hinstructions⟩ := hlisting.walk
  obtain ⟨used, hused, hnamed⟩ := ofInstructions_eq hentries hinstructions
  obtain ⟨caught, hcaught, hcatches⟩ := ofHandlers_eq hhandlers
  refine ⟨used ++ caught, ?_, fun n => ?_⟩
  · have hwalk : Instruction.walk code.bytes = (instructions, none) := hwalk
    unfold ofCode
    simp only [hwalk, hused, hcaught, bind, Except.bind]
    rfl
  · rw [List.mem_append, hnamed, hcatches]

/-- **What is found in a method**: the classes that it names. -/
theorem ofMethod_eq (hentries : Entry.Consistent entries) {classFile : ClassFile}
    (hpool : classFile.pool = .ofEntries entries) {m : MethodRequest} {member : Member}
    (hread : m.ReadAs classFile member) {listing : List Assembly}
    (hlisting : ∀ bytes, m.code = some bytes → Assembly.Listing entries 0 listing bytes) :
    ∃ names, ofMethod classFile member = .ok names ∧
      ∀ n, n ∈ names ↔ m.Mentions entries listing n := by
  have hsignature (n : Name) : n ∈ Descriptor.ofMethod member.descriptor ↔
      Descriptor.MethodNames (Text.codePoints m.descriptor) n := by
    rw [hread.descriptor_eq, Descriptor.mem_ofMethod]
  have hdeclared (n : Name) : n ∈ (m.exceptions.map Text.codePoints).map Name.dotted ↔
      ∃ name ∈ m.exceptions, (Text.codePoints name).dotted = n := by
    rw [List.map_map, List.mem_map]
    rfl
  have hcode := hread.code_eq
  unfold ofMethod
  rw [hread.exceptions_eq]
  cases hm : m.code with
  | none =>
      rw [hm] at hcode
      rw [hcode]
      refine ⟨_, rfl, fun n => ?_⟩
      rw [List.append_nil, List.mem_append, hsignature, hdeclared]
      constructor
      · rintro (h | ⟨name, hname, rfl⟩)
        · exact .signature h
        · exact .exception hname
      · intro h
        cases h with
        | signature h => exact .inl h
        | exception h => exact .inr ⟨_, h, rfl⟩
        -- without code, neither instructions nor handlers name anything
        | instruction hcode => simp [hm] at hcode
        | handler hcode => simp [hm] at hcode
  | some bytes =>
      rw [hm] at hcode
      obtain ⟨code, hcode, rfl, hhandlers⟩ := hcode
      rw [hpool] at hhandlers
      obtain ⟨used, hused, hmentioned⟩ := ofCode_eq hentries (hlisting _ hm) hhandlers
      rw [hcode, hpool]
      refine ⟨Descriptor.ofMethod member.descriptor ++
        (m.exceptions.map Text.codePoints).map Name.dotted ++ used, ?_, fun n => ?_⟩
      · simp only [bind, Except.bind, hused]
        rfl
      · rw [List.mem_append, List.mem_append, hsignature, hdeclared, hmentioned]
        constructor
        · rintro ((h | ⟨name, hname, rfl⟩) | ⟨a, ha, h⟩ | ⟨request, hrequest, h⟩)
          · exact .signature h
          · exact .exception hname
          · exact .instruction (by rw [hm]; rfl) ha h
          · exact .handler (by rw [hm]; rfl) hrequest h
        · intro h
          cases h with
          | signature h => exact .inl (.inl h)
          | exception h => exact .inl (.inr ⟨_, h, rfl⟩)
          | instruction _ ha h => exact .inr (.inl ⟨_, ha, h⟩)
          | handler _ hrow h => exact .inr (.inr ⟨_, hrow, h⟩)

theorem ofMethods_eq (hentries : Entry.Consistent entries) {classFile : ClassFile}
    (hpool : classFile.pool = .ofEntries entries) {requests : List MethodRequest}
    {members : List Member}
    (hread : List.Forall₂ (MethodRequest.ReadAs classFile) requests members)
    {listing : MethodRequest → List Assembly}
    (hlisting : ∀ m ∈ requests, ∀ bytes, m.code = some bytes →
      Assembly.Listing entries 0 (listing m) bytes) :
    ∃ names, ofMethods classFile members = .ok names ∧
      ∀ n, n ∈ names ↔ ∃ m ∈ requests, m.Mentions entries (listing m) n := by
  induction hread with
  | nil => exact ⟨[], rfl, by simp⟩
  | @cons m member requests members hfirst _ ih =>
      obtain ⟨here, hhere, hfound⟩ := ofMethod_eq hentries hpool hfirst
        (hlisting m List.mem_cons_self)
      obtain ⟨behind, hbehind, hmore⟩ := ih fun m' hm' => hlisting m' (List.mem_cons_of_mem m hm')
      refine ⟨here ++ behind, ?_, fun n => ?_⟩
      · rw [ofMethods, hhere, hbehind]
        rfl
      · rw [List.mem_append, hfound, hmore, List.exists_mem_cons_iff]

variable {s : BuilderSession} {answers : List (BuilderCall × BuilderAnswer)}
  {b : ClassFileBuilder} {bytes : Bytes} {listing : MethodRequest → List Assembly}

theorem mem_ofFields {requests : List FieldRequest} {members : List Member} {n : Name}
    (h : List.Forall₂ FieldRequest.ReadAs requests members) :
    n ∈ members.filterMap (fun field => Descriptor.ofField field.descriptor) ↔
      ∃ f ∈ requests, Descriptor.FieldNames (Text.codePoints f.descriptor) n := by
  induction h with
  | nil => simp
  | @cons f member requests members hfirst _ ih =>
      rw [List.exists_mem_cons_iff, ← ih, ← Descriptor.ofField_eq_some, ← hfirst.descriptor_eq]
      cases hfield : Descriptor.ofField member.descriptor with
      | none => simp [hfield]
      | some m => simp [hfield, eq_comm]

theorem mem_superclass {classFile : ClassFile} (hread : s.ReadAs answers classFile) {n : Name} :
    n ∈ classFile.superClass.toList.map Name.dotted ↔
      ∃ name, s.superName = some name ∧ name ≠ [] ∧ n = (Text.codePoints name).dotted := by
  have hsuper := hread.superClass_eq
  match hname : s.superName with
  | none =>
      rw [hname] at hsuper
      simp [hsuper]
  | some [] =>
      rw [hname] at hsuper
      simp [hsuper]
  | some (c :: name) =>
      rw [hname] at hsuper
      simp [hsuper]

/-- What is found outside the methods: the names of the class and the types of its fields. -/
theorem mem_header {classFile : ClassFile} (hread : s.ReadAs answers classFile) {n : Name} :
    n ∈ classFile.thisClass.dotted :: classFile.superClass.toList.map Name.dotted ++
        classFile.interfaces.map Name.dotted ++
        classFile.fields.filterMap (fun field => Descriptor.ofField field.descriptor) ↔
      n = (Text.codePoints s.name).dotted ∨
      (∃ name, s.superName = some name ∧ name ≠ [] ∧ n = (Text.codePoints name).dotted) ∨
      (∃ name ∈ s.interfaces, n = (Text.codePoints name).dotted) ∨
      ∃ f ∈ answers.filterMap BuilderCall.field?,
        Descriptor.FieldNames (Text.codePoints f.descriptor) n := by
  have hinterfaces : n ∈ classFile.interfaces.map Name.dotted ↔
      ∃ name ∈ s.interfaces, n = (Text.codePoints name).dotted := by
    rw [hread.interfaces_eq, List.map_map, List.mem_map]
    simp only [Function.comp, eq_comm]
  rw [List.mem_append, List.mem_append, List.mem_cons, mem_superclass hread, hinterfaces,
    mem_ofFields hread.fields_eq, hread.thisClass_eq, or_assoc, or_assoc]

/-- **What is found in a class file**: the classes that its session names. -/
theorem ofClassFile_eq (hentries : Entry.Consistent b.entries) {classFile : ClassFile}
    (hpool : classFile.pool = .ofEntries b.entries) (hread : s.ReadAs answers classFile)
    (hlisting : ∀ m ∈ answers.filterMap BuilderCall.method?, ∀ bytes, m.code = some bytes →
      Assembly.Listing b.entries 0 (listing m) bytes) :
    ∃ refs, ofClassFile classFile = .ok refs ∧ refs.owner = (Text.codePoints s.name).dotted ∧
      ∀ n, n ∈ refs.types.toList ↔ s.Mentions answers b.entries listing n := by
  obtain ⟨names, hnames, hmentioned⟩ := ofMethods_eq hentries hpool hread.methods_eq hlisting
  refine ⟨_, by rw [ofClassFile, hnames]; rfl, by rw [hread.thisClass_eq], fun n => ?_⟩
  rw [TypeSet.mem_ofList, List.mem_append, mem_header hread, hmentioned]
  constructor
  · rintro ((rfl | ⟨name, hname, hne, rfl⟩ | ⟨name, hname, rfl⟩ | ⟨f, hf, h⟩) | ⟨m, hm, h⟩)
    · exact .owner
    · exact .superclass hname hne
    · exact .interface hname
    · exact .field hf h
    · exact .method hm h
  · intro h
    cases h with
    | owner => exact .inl (.inl rfl)
    | superclass h hne => exact .inl (.inr (.inl ⟨_, h, hne, rfl⟩))
    | interface h => exact .inl (.inr (.inr (.inl ⟨_, h, rfl⟩)))
    | field hf h => exact .inl (.inr (.inr (.inr ⟨_, hf, h⟩)))
    | method hm h => exact .inr ⟨_, hm, h⟩

/-- **Extraction is exact.**  Whatever a session asks for, as long as the code of its methods is a
listing of instructions that refer to constants of the builder, the types that are extracted from
the bytes are those that the session names. -/
theorem extract_of_build (listing : MethodRequest → List Assembly)
    (hrun : s.run = .ok (answers, b)) (hbuild : b.build = .ok bytes)
    (hlisting : ∀ m ∈ answers.filterMap BuilderCall.method?, ∀ code, m.code = some code →
      Assembly.Listing b.entries 0 (listing m) code) :
    ∃ refs, extract bytes = .ok refs ∧ refs.owner = (Text.codePoints s.name).dotted ∧
      ∀ n, n ∈ refs.types.toList ↔ s.Mentions answers b.entries listing n := by
  obtain ⟨classFile, hparse, hbuilder, hread⟩ := BuilderSession.exists_parse hrun hbuild
  obtain ⟨hentries, -⟩ := BuilderSession.recorded_run hrun
  obtain ⟨refs, hrefs, howner, htypes⟩ :=
    ofClassFile_eq hentries hbuilder.pool_eq hread hlisting
  refine ⟨refs, ?_, howner, htypes⟩
  rw [extract, hparse]
  exact hrefs

/-- The instructions of a method that uses three classes, with a switch at an offset of eight. -/
def sampleListing : List Assembly :=
  [.reference 0xC0 (.classRef "[Lq/B;".toList) [],
    .reference 0xB6 (.memberRef .method "r/C".toList "m".toList "(Ls/D;)V".toList) [],
    .load 8, .tableswitch [0, 0, 0] 20 1 1 [20], .plain 0xB1 []]

/-- The bytes of those instructions. -/
def sampleCode : Bytes :=
  [0xC0, 0, 8, 0xB6, 0, 14, 0x12, 8, 0xAA, 0, 0, 0, 0, 0, 0, 20, 0, 0, 0, 1, 0, 0, 0, 1, 0, 0, 0,
    20, 0xB1]

/-- The method with those instructions, and with a handler. -/
def sampleMethod : MethodRequest :=
  ⟨"m".toList, "()V".toList, some sampleCode, [], [⟨0, 6, 28, some "t/E".toList⟩], 1⟩

/-- A session that builds a class with that method. -/
def sampleSession : BuilderSession where
  name := "p/A".toList
  superName := none
  interfaces := ["I".toList]
  major := 52
  calls := [.constant (.string "s".toList), .constant (.classRef "[Lq/B;".toList),
    .constant (.memberRef .method "r/C".toList "m".toList "(Ls/D;)V".toList), .method sampleMethod]

theorem extract_of_build_sample :
    ∃ answers b bytes refs, sampleSession.run = .ok (answers, b) ∧ b.build = .ok bytes ∧
      extract bytes = .ok refs ∧ refs.owner = Name.ofString "p.A" ∧
      (∀ n, n ∈ refs.types.toList ↔
        sampleSession.Mentions answers b.entries (fun _ => sampleListing) n) := by
  have hbuilt : (sampleSession.run.toOption.bind fun found => found.2.build.toOption).isSome := by
    decide +kernel
  have hmethods : (sampleSession.run.toOption.map fun found =>
      found.1.filterMap BuilderCall.method?) = some [sampleMethod] := by
    decide +kernel
  have hclass : (sampleSession.run.toOption.map fun found =>
      (ConstantRequest.classRef "[Lq/B;".toList).indexIn found.2.entries) = some (some 8) := by
    decide +kernel
  have hmember : (sampleSession.run.toOption.map fun found =>
      (ConstantRequest.memberRef .method "r/C".toList "m".toList "(Ls/D;)V".toList).indexIn
        found.2.entries) = some (some 14) := by
    decide +kernel
  obtain ⟨bytes, hbuilt⟩ := Option.isSome_iff_exists.1 hbuilt
  obtain ⟨⟨answers, b⟩, hrun, hbuild⟩ := Option.bind_eq_some_iff.1 hbuilt
  rw [hrun] at hmethods hclass hmember
  have hlisting : Assembly.Listing b.entries 0 sampleListing sampleCode :=
    .cons (.reference (by decide) (Option.some.inj hclass) (by decide) rfl) <|
    .cons (.reference (by decide) (Option.some.inj hmember) (by decide) rfl) <|
    .cons (.load (by decide)) <|
    .cons (.tableswitch (by decide) (by decide) (by decide) (by decide) rfl) <|
    .cons (.plain (by decide) rfl) <| .nil _
  have hall : ∀ m ∈ answers.filterMap BuilderCall.method?, ∀ code, m.code = some code →
      Assembly.Listing b.entries 0 sampleListing code := by
    have hanswers : answers.filterMap BuilderCall.method? = [sampleMethod] :=
      Option.some.inj hmethods
    intro m hm code hcode
    rw [hanswers, List.mem_singleton] at hm
    subst hm
    cases hcode
    exact hlisting
  obtain ⟨refs, hrefs, howner, htypes⟩ := extract_of_build (fun _ => sampleListing)
    (eq_ok_of_toOption hrun) (eq_ok_of_toOption hbuild) hall
  exact ⟨answers, b, bytes, refs, eq_ok_of_toOption hrun, eq_ok_of_toOption hbuild, hrefs, howner,
    htypes⟩

end ClassReferences

end Unjar
