import Unjar.Proofs.ClassFile.Placing

/-!
The layout of members.

A builder lays a field or a method out as indices and attribute bodies.  This module tells what
such a layout is for a request: which indices stand in it, and which bytes its attributes have.
Everything is told of the entries of the builder and of every longer list.

Main definitions:

* `Unjar.Handler.encode`, `Unjar.Code.encode` — the bytes of a handler table row and of a code
  attribute;
* `Unjar.HandlerRequest.LaidOut`, `Unjar.FieldRequest.LaidOut`, `Unjar.MethodRequest.LaidOut` —
  that a layout is that of a request.

Main results:

* `Unjar.ClassFileBuilder.run_addField`, `Unjar.ClassFileBuilder.run_addMethod` — **a member that is
  added is laid out as requested**; one that is refused leaves constants only.
-/

set_option autoImplicit false

namespace Unjar

open ConstantRequest Building

/-! ### Layouts -/

/-- The bytes of a row of the handler table. -/
def Handler.encode (row : Handler) : Bytes :=
  bytesOfNat 2 row.start ++ (bytesOfNat 2 row.stop ++ (bytesOfNat 2 row.handler ++
    bytesOfNat 2 row.catchType))

/-- The bytes of a code attribute without attributes of its own. -/
def Code.encode (code : Code) : Bytes :=
  bytesOfNat 2 code.maxStack ++ bytesOfNat 2 code.maxLocals ++ bytesOfNat 4 code.bytes.length ++
    code.bytes ++ bytesOfNat 2 code.handlers.length ++ code.handlers.flatMap Handler.encode ++
    bytesOfNat 2 0

/-- The bytes of an exceptions attribute, given the indices of the exceptions. -/
def encodeExceptions (indices : List Nat) : Bytes :=
  bytesOfNat 2 indices.length ++ indices.flatMap (bytesOfNat 2)

/-- The parts of a row fit their fields. -/
def Handler.Fits (row : Handler) : Prop :=
  row.start < 0x10000 ∧ row.stop < 0x10000 ∧ row.handler < 0x10000 ∧ row.catchType < 0x10000

/-- The parts of an attribute fit their fields. -/
def AttributeFits (named : Nat × Bytes) : Prop :=
  named.1 < 0x10000 ∧ named.2.length < 0x100000000

/-- The parts of a layout fit their fields. -/
structure MemberLayout.Fits (layout : MemberLayout) : Prop where
  access_lt : layout.access < 0x10000
  name_lt : layout.name < 0x10000
  descriptor_lt : layout.descriptor < 0x10000
  attributes_length : layout.attributes.length < 0x10000
  attributes_fit : ∀ named ∈ layout.attributes, AttributeFits named

/-- A row of the handler table is that of a request. -/
structure HandlerRequest.LaidOut (entries : List Entry) (h : HandlerRequest) (row : Handler) :
    Prop where
  start_eq : h.start = row.start
  stop_eq : h.stop = row.stop
  handler_eq : h.handler = row.handler
  catchType_eq : classIndexOrZero entries h.catchType = some row.catchType
  fits : row.Fits

/-- **A layout is that of a field.** -/
structure FieldRequest.LaidOut (entries : List Entry) (f : FieldRequest) (layout : MemberLayout) :
    Prop where
  access_eq : f.access = layout.access
  name_eq : textIndex entries f.name = some layout.name
  descriptor_eq : textIndex entries f.descriptor = some layout.descriptor
  attributes_eq : layout.attributes = []
  fits : layout.Fits

/-- The attributes that hold the code of a method: one, or none where it has no code. -/
def MethodRequest.CodeLaidOut (entries : List Entry) (m : MethodRequest)
    (attributes : List (Nat × Bytes)) : Prop :=
  match m.code with
  | none => attributes = []
  | some bytes => ∃ index rows,
    attributes = [(index, Code.encode ⟨8, 8, bytes, rows⟩)] ∧
      textIndex entries "Code".toList = some index ∧
      List.Forall₂ (HandlerRequest.LaidOut entries) m.handlers rows ∧
      bytes.length < 0x100000000 ∧ rows.length < 0x10000

/-- The attributes that hold the exceptions of a method: one, or none where it declares none. -/
def MethodRequest.ExceptionsLaidOut (entries : List Entry) (m : MethodRequest)
    (attributes : List (Nat × Bytes)) : Prop :=
  match m.exceptions with
  | [] => attributes = []
  | exceptions => ∃ index indices,
    attributes = [(index, encodeExceptions indices)] ∧
      textIndex entries "Exceptions".toList = some index ∧
      List.Forall₂ (fun name i => classIndex entries name = some i ∧ i < 0x10000)
        exceptions indices ∧ indices.length < 0x10000

theorem MethodRequest.CodeLaidOut.length_le {entries : List Entry} {m : MethodRequest}
    {attributes : List (Nat × Bytes)} (h : m.CodeLaidOut entries attributes) :
    attributes.length ≤ 1 := by
  unfold MethodRequest.CodeLaidOut at h
  split at h
  · rw [h]
    exact Nat.zero_le 1
  · obtain ⟨index, rows, rfl, -⟩ := h
    exact Nat.le_refl 1

theorem MethodRequest.ExceptionsLaidOut.length_le {entries : List Entry} {m : MethodRequest}
    {attributes : List (Nat × Bytes)} (h : m.ExceptionsLaidOut entries attributes) :
    attributes.length ≤ 1 := by
  unfold MethodRequest.ExceptionsLaidOut at h
  split at h
  · rw [h]
    exact Nat.zero_le 1
  · obtain ⟨index, indices, rfl, -⟩ := h
    exact Nat.le_refl 1

/-- **A layout is that of a method.** -/
structure MethodRequest.LaidOut (entries : List Entry) (m : MethodRequest) (layout : MemberLayout) :
    Prop where
  access_eq : m.access = layout.access
  name_eq : textIndex entries m.name = some layout.name
  descriptor_eq : textIndex entries m.descriptor = some layout.descriptor
  attributes_eq : ∃ code exceptions, layout.attributes = code ++ exceptions ∧
    m.CodeLaidOut entries code ∧ m.ExceptionsLaidOut entries exceptions
  fits : layout.Fits

/-! ### Laying out -/

namespace ClassFileBuilder

/-- Numbers in two bytes each. -/
theorem adds_shortFields (numbers : List Int) :
    Adds (numbers.mapM shortField) fun rows _ =>
      List.Forall₂ (fun (n : Int) bytes => ∃ k : Nat, n = k ∧ k < 0x10000 ∧ bytes = bytesOfNat 2 k)
        numbers rows :=
  .mapM fun n _ => adds_shortField n

theorem adds_handlerRow (h : HandlerRequest) :
    Adds (handlerRow h) fun bytes entries =>
      ∃ row, h.LaidOut entries row ∧ bytes = row.encode := by
  refine ((adds_classRefOrZero h.catchType).bind fun i _ _ => (adds_shortFields _).bind
    fun rows _ _ => .pure (P := fun bytes _ => bytes = rows.flatten) rows.flatten
      fun _ => rfl).mono ?_
  rintro bytes entries ⟨i, hi, rows, hrows, rfl⟩
  -- four numbers, hence four fields
  cases hrows with | cons hstart hrows =>
  cases hrows with | cons hstop hrows =>
  cases hrows with | cons hhandler hrows =>
  cases hrows with | cons hindex hrows =>
  cases hrows
  obtain ⟨start, hs, hslt, rfl⟩ := hstart
  obtain ⟨stop, ht, htlt, rfl⟩ := hstop
  obtain ⟨handler, hh, hhlt, rfl⟩ := hhandler
  obtain ⟨k, hk, hklt, rfl⟩ := hindex
  obtain rfl : i = k := Int.ofNat.inj hk
  exact ⟨⟨start, stop, handler, i⟩, ⟨hs, ht, hh, hi, hslt, htlt, hhlt, hklt⟩,
    by simp [Handler.encode]⟩

theorem adds_codeBody (code : Bytes) (handlers : List HandlerRequest) :
    Adds (codeBody code handlers) fun body entries => ∃ rows,
      body = Code.encode ⟨8, 8, code, rows⟩ ∧
        List.Forall₂ (HandlerRequest.LaidOut entries) handlers rows ∧
        code.length < 0x100000000 ∧ rows.length < 0x10000 := by
  have hsize : Adds (liftM (unsignedField 4 code.length)) fun bytes _ =>
      ∃ k : Nat, (code.length : Int) = k ∧ k < 0x100000000 ∧ bytes = bytesOfNat 4 k :=
    .lift _ fun _ h _ => unsignedField_eq_ok.1 h
  refine ((Adds.mapM fun h _ => adds_handlerRow h).bind fun rows _ _ => hsize.bind fun size _ _ =>
    (adds_shortField rows.length).bind fun count _ _ =>
    .pure (P := fun body _ => body = bytesOfNat 2 8 ++ bytesOfNat 2 8 ++ size ++ code ++
      count ++ rows.flatten ++ bytesOfNat 2 0) _ fun _ => rfl).mono ?_
  rintro body entries
    ⟨encoded, hrows, _, ⟨size, hsize, hlt, rfl⟩, _, ⟨count, hcount, hclt, rfl⟩, rfl⟩
  have hdecoded : ∃ rows, List.Forall₂ (HandlerRequest.LaidOut entries) handlers rows ∧
      encoded = rows.map Handler.encode := by
    clear hcount
    induction hrows with
    | nil => exact ⟨[], .nil, rfl⟩
    | cons hrow _ ih =>
        obtain ⟨row, hrow, rfl⟩ := hrow
        obtain ⟨rows, hrows, rfl⟩ := ih
        exact ⟨row :: rows, .cons hrow hrows, rfl⟩
  obtain ⟨rows, hlaid, rfl⟩ := hdecoded
  obtain rfl : code.length = size := Int.ofNat.inj hsize
  obtain rfl : rows.length = count := by simpa using Int.ofNat.inj hcount
  exact ⟨rows, by simp [Code.encode, List.flatMap], hlaid, hlt, hclt⟩

theorem adds_exceptionsBody (exceptions : List Text) :
    Adds (exceptionsBody exceptions) fun body entries => ∃ indices,
      body = encodeExceptions indices ∧
        List.Forall₂ (fun name i => classIndex entries name = some i ∧ i < 0x10000)
          exceptions indices ∧ indices.length < 0x10000 := by
  have hindex (name : Text) : Adds (do shortField (← classRef name)) fun bytes entries =>
      ∃ i, classIndex entries name = some i ∧ i < 0x10000 ∧ bytes = bytesOfNat 2 i := by
    refine ((adds_classRef name).bind fun i _ _ => adds_shortField i).mono ?_
    rintro bytes entries ⟨i, hi, k, hk, hlt, rfl⟩
    obtain rfl : i = k := Int.ofNat.inj hk
    exact ⟨i, hi, hlt, rfl⟩
  refine ((adds_shortField exceptions.length).bind fun count _ _ =>
    (Adds.mapM fun name _ => hindex name).bind fun indices _ _ =>
    .pure (P := fun body _ => body = count ++ indices.flatten) _ fun _ => rfl).mono ?_
  rintro body entries ⟨_, ⟨count, hcount, hlt, rfl⟩, encoded, hencoded, rfl⟩
  have hdecoded : ∃ indices, List.Forall₂ (fun name i =>
      classIndex entries name = some i ∧ i < 0x10000) exceptions indices ∧
      encoded = indices.map (bytesOfNat 2) := by
    clear hcount
    induction hencoded with
    | nil => exact ⟨[], .nil, rfl⟩
    | cons hname _ ih =>
        obtain ⟨i, hi, hilt, rfl⟩ := hname
        obtain ⟨indices, hindices, rfl⟩ := ih
        exact ⟨i :: indices, .cons ⟨hi, hilt⟩ hindices, rfl⟩
  obtain ⟨indices, hindices, rfl⟩ := hdecoded
  have hlength : exceptions.length = indices.length := hindices.length_eq
  obtain rfl : exceptions.length = count := Int.ofNat.inj hcount
  rw [hlength] at hlt ⊢
  exact ⟨indices, by simp [encodeExceptions, List.flatMap], hindices, hlt⟩

theorem adds_namedAttribute (name : Text) (body : Bytes) :
    Adds (namedAttribute name body) fun named entries =>
      ∃ i, named = (i, body) ∧ textIndex entries name = some i ∧ i < 0x10000 ∧
        body.length < 0x100000000 := by
  have hsize : Adds (liftM (unsignedField 4 body.length)) fun bytes _ =>
      ∃ k : Nat, (body.length : Int) = k ∧ k < 0x100000000 ∧ bytes = bytesOfNat 4 k :=
    .lift _ fun _ h _ => unsignedField_eq_ok.1 h
  refine ((adds_utf8 name).bind fun i _ _ => (adds_shortField i).bind fun _ _ _ =>
    hsize.bind fun _ _ _ => .pure (P := fun named _ => named = (i, body)) (i, body)
      fun _ => rfl).mono ?_
  rintro _ entries ⟨i, hi, _, ⟨k, hk, hklt, -⟩, _, ⟨size, hsize, hlt, -⟩, rfl⟩
  exact ⟨i, rfl, hi, by omega, by omega⟩

theorem adds_codeAttributes (m : MethodRequest) :
    Adds (codeAttributes m) fun attributes entries => m.CodeLaidOut entries attributes ∧
      ∀ named ∈ attributes, AttributeFits named := by
  unfold codeAttributes MethodRequest.CodeLaidOut
  cases m.code with
  | none => exact .pure [] fun _ => ⟨rfl, by simp⟩
  | some bytes =>
      refine ((adds_codeBody bytes m.handlers).bind fun body _ _ =>
        (adds_namedAttribute _ body).bind fun named _ _ =>
        .pure (P := fun attributes _ => attributes = [named]) [named] fun _ => rfl).mono ?_
      rintro _ entries ⟨_, ⟨rows, rfl, hrows, hlt, hrlt⟩, _, ⟨index, rfl, hi, hilt, hblt⟩, rfl⟩
      exact ⟨⟨index, rows, rfl, hi, hrows, hlt, hrlt⟩, by simpa [AttributeFits] using ⟨hilt, hblt⟩⟩

theorem adds_exceptionsAttributes (m : MethodRequest) :
    Adds (exceptionsAttributes m) fun attributes entries =>
      m.ExceptionsLaidOut entries attributes ∧
        ∀ named ∈ attributes, AttributeFits named := by
  unfold exceptionsAttributes MethodRequest.ExceptionsLaidOut
  cases m.exceptions with
  | nil => exact .pure [] fun _ => ⟨rfl, by simp⟩
  | cons name names =>
      refine ((adds_exceptionsBody (name :: names)).bind fun body _ _ =>
        (adds_namedAttribute _ body).bind fun named _ _ =>
        .pure (P := fun attributes _ => attributes = [named]) [named] fun _ => rfl).mono ?_
      rintro _ entries ⟨_, ⟨indices, rfl, hindices, hlt⟩, _, ⟨index, rfl, hi, hilt, hblt⟩, rfl⟩
      exact ⟨⟨index, indices, rfl, hi, hindices, hlt⟩, by simpa [AttributeFits] using ⟨hilt, hblt⟩⟩

theorem adds_layMember (name descriptor : Text) (access : Int) (attributes : List (Nat × Bytes))
    (hcount : attributes.length < 0x10000)
    (hattributes : ∀ named ∈ attributes, AttributeFits named) :
    Adds (layMember name descriptor access attributes) fun layout entries =>
      access = layout.access ∧ textIndex entries name = some layout.name ∧
        textIndex entries descriptor = some layout.descriptor ∧
        layout.attributes = attributes ∧ layout.Fits := by
  refine ((adds_utf8 name).bind fun i _ _ => (adds_utf8 descriptor).bind fun j _ _ =>
    (adds_shortFields _).bind fun _ _ _ => .pure (P := fun (layout : MemberLayout) _ =>
      layout = ⟨access.toNat, i, j, attributes⟩) _ fun _ => rfl).mono ?_
  rintro _ entries ⟨i, hi, j, hj, rows, hrows, rfl⟩
  cases hrows with | cons haccess hrows =>
  cases hrows with | cons hname hrows =>
  cases hrows with | cons hdescriptor hrows =>
  cases hrows
  obtain ⟨access, rfl, halt, -⟩ := haccess
  obtain ⟨k, hk, hklt, -⟩ := hname
  obtain ⟨l, hl, hllt, -⟩ := hdescriptor
  obtain rfl : i = k := Int.ofNat.inj hk
  obtain rfl : j = l := Int.ofNat.inj hl
  exact ⟨rfl, hi, hj, rfl, halt, hklt, hllt, hcount, hattributes⟩

/-! ### Adding members -/

/-- An act whose answer is then entered into the builder.  Where it fails nothing is entered. -/
theorem run_bind_modify {α : Type} {act : Building α} {P : α → List Entry → Prop}
    (h : Adds act P) (change : α → ClassFileBuilder → ClassFileBuilder) (b : ClassFileBuilder) :
    ∃ more, (Entry.Consistent b.entries → Entry.Consistent (b.entries ++ more)) ∧
      ((∃ a, (∀ later, P a (b.entries ++ more ++ later)) ∧
        (act >>= fun a => modify (change a)).run.run b =
          (.ok (), change a { b with entries := b.entries ++ more })) ∨
      ∃ cause, (act >>= fun a => modify (change a)).run.run b =
        (.error cause, { b with entries := b.entries ++ more })) := by
  obtain ⟨more, hfit, hstate, htells⟩ := h b
  refine ⟨more, hfit, ?_⟩
  rw [ExceptT.run_bind, StateT.run_bind]
  cases hrun : act.run.run b with
  | mk answer b' =>
      rw [hrun] at hstate htells
      cases hstate
      cases answer with
      | error cause => exact .inr ⟨cause, rfl⟩
      | ok a => exact .inl ⟨a, htells a rfl, rfl⟩

/-- **A field that is added is laid out as requested.** -/
theorem run_addField (f : FieldRequest) (b : ClassFileBuilder) :
    ∃ more, (Entry.Consistent b.entries → Entry.Consistent (b.entries ++ more)) ∧
      ((∃ field, (∀ later, f.LaidOut (b.entries ++ more ++ later) field) ∧
        (addField f.name f.descriptor f.access).run.run b =
          (.ok (), { b with entries := b.entries ++ more, fields := b.fields ++ [field] })) ∨
      ∃ cause, (addField f.name f.descriptor f.access).run.run b =
        (.error cause, { b with entries := b.entries ++ more })) := by
  have hadds := adds_layMember f.name f.descriptor f.access [] (by decide) (by simp)
  have hlaid := hadds.mono (Q := fun field entries => f.LaidOut entries field)
    fun field entries h => ⟨h.1, h.2.1, h.2.2.1, h.2.2.2.1, h.2.2.2.2⟩
  exact run_bind_modify hlaid (fun field b => { b with fields := b.fields ++ [field] }) b

/-- **A method that is added is laid out as requested.** -/
theorem run_addMethod (m : MethodRequest) (b : ClassFileBuilder) :
    ∃ more, (Entry.Consistent b.entries → Entry.Consistent (b.entries ++ more)) ∧
      ((∃ method, (∀ later, m.LaidOut (b.entries ++ more ++ later) method) ∧
        (addMethod m).run.run b =
          (.ok (), { b with entries := b.entries ++ more, methods := b.methods ++ [method] })) ∨
      ∃ cause, (addMethod m).run.run b =
        (.error cause, { b with entries := b.entries ++ more })) := by
  have hcount {code exceptions : List (Nat × Bytes)} (hcode : code.length ≤ 1)
      (hexceptions : exceptions.length ≤ 1) : (code ++ exceptions).length < 0x10000 := by
    rw [List.length_append]
    omega
  have hadds := (adds_codeAttributes m).bind fun code _ hcode =>
    (adds_exceptionsAttributes m).bind fun exceptions _ hexceptions =>
    adds_layMember m.name m.descriptor m.access (code ++ exceptions)
      (hcount hcode.1.length_le hexceptions.1.length_le) fun named hnamed =>
      (List.mem_append.1 hnamed).elim (hcode.2 named) (hexceptions.2 named)
  have hlaid := hadds.mono (Q := fun method entries => m.LaidOut entries method) <| by
    rintro method entries ⟨code, hcode, exceptions, hexceptions, haccess, hname, hdescriptor, hall,
      hfits⟩
    exact ⟨haccess, hname, hdescriptor, ⟨code, exceptions, hall, hcode.1, hexceptions.1⟩, hfits⟩
  have hrun : addMethod m = (do
      let code ← codeAttributes m
      let exceptions ← exceptionsAttributes m
      layMember m.name m.descriptor m.access (code ++ exceptions)) >>= fun method =>
        modify fun b => { b with methods := b.methods ++ [method] } := by
    simp only [addMethod, bind_assoc]
  rw [hrun]
  exact run_bind_modify hlaid (fun method b => { b with methods := b.methods ++ [method] }) b

end ClassFileBuilder

end Unjar
