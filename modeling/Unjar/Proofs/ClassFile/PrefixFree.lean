import Unjar.Proofs.Decoding

/-!
Class files have one end.

Reading a class file takes its bytes from the front and never looks behind the last attribute.
Since nothing may follow that attribute, a class file with bytes added is no class file, and a class
file cut short at any point is none either: were it one, the whole would be that one with bytes
added.

Main results:

* `Unjar.ClassFile.read_ignoresTail` — what is read of a class file does not depend on what follows;
* `Unjar.ClassFile.parse_append` — added bytes are counted and refused;
* `Unjar.ClassFile.parse_prefix_free` — **the class files are prefix-free**.
-/

set_option autoImplicit false

namespace Unjar

open Decoder

/-! ### The parts of a class file -/

theorem Cursor.u2_ignoresTail : IgnoresTail Cursor.u2 := .unsigned 2

theorem Cursor.u4_ignoresTail : IgnoresTail Cursor.u4 := .unsigned 4

namespace Constant

theorem readPair_ignoresTail (make : Nat → Nat → Constant) : IgnoresTail (readPair make) :=
  .bind Cursor.u2_ignoresTail fun first =>
    .bind Cursor.u2_ignoresTail fun second => .pure (make first second)

theorem readUtf8_ignoresTail : IgnoresTail readUtf8 := by
  refine .bind Cursor.u2_ignoresTail fun length => .bind (.take length) fun raw => ?_
  cases Name.decode raw with
  | none => exact .throw .invalidName
  | some name => exact .pure (utf8 name)

theorem read_ignoresTail (index : Nat) : IgnoresTail (read index) := by
  refine .bind (.unsigned 1) fun tag => ?_
  -- one case per tag: a string, one index, two indices, a block of bytes, or no constant at all
  split
  case h_1 => exact readUtf8_ignoresTail
  all_goals
    first
    | exact readPair_ignoresTail _
    | exact Cursor.u2_ignoresTail.map _
    | exact .map _ (.take _)
    | exact .throw _

end Constant

namespace ConstantPool

theorem readSlots_ignoresTail (n index : Nat) : IgnoresTail (readSlots n index) := by
  induction n, index using readSlots.induct with
  | case1 index => exact .pure []
  | case2 index =>
      refine .bind (Constant.read_ignoresTail index) fun constant => ?_
      cases constant.isWide with
      | true => exact .throw .wideOverrun
      | false => exact .pure [some constant]
  | case3 n index ihWide ihNarrow =>
      refine .bind (Constant.read_ignoresTail index) fun constant => ?_
      cases constant.isWide with
      | true => exact ihWide.bind fun rest => .pure (some constant :: none :: rest)
      | false => exact ihNarrow.bind fun rest => .pure (some constant :: rest)

theorem read_ignoresTail : IgnoresTail read := by
  refine .bind Cursor.u2_ignoresTail fun count => ?_
  cases count with
  | zero => exact .throw .emptyPool
  | succ n => exact (readSlots_ignoresTail n 1).bind fun slots => .pure _

end ConstantPool

theorem Attributes.read_ignoresTail (pool : ConstantPool) : IgnoresTail (Attributes.read pool) := by
  refine .bind Cursor.u2_ignoresTail fun count => .times ?_ count
  exact .bind Cursor.u2_ignoresTail fun index => .bind (.lift _) fun name =>
    .bind Cursor.u4_ignoresTail fun size => .bind (.take size) fun body => .pure (name, body)

theorem Member.readAll_ignoresTail (pool : ConstantPool) : IgnoresTail (Member.readAll pool) := by
  refine .bind Cursor.u2_ignoresTail fun count => .times ?_ count
  exact .bind Cursor.u2_ignoresTail fun access =>
    .bind Cursor.u2_ignoresTail fun name => .bind (.lift _) fun name =>
    .bind Cursor.u2_ignoresTail fun descriptor => .bind (.lift _) fun descriptor =>
    .bind (Attributes.read_ignoresTail pool) fun attributes =>
    .pure _

namespace ClassFile

/-- The magic number is read where ten bytes are left, and more than ten are as good. -/
theorem readMagic_ignoresTail : IgnoresTail readMagic := by
  intro c a c' more h
  have hleft : (c.extend more).remaining = c.remaining + more.length := by
    simp only [Cursor.remaining, Cursor.extend, List.length_append]
    omega
  unfold readMagic at h ⊢
  simp only [StateT.run_bind, StateT.run_get, pure_bind] at h ⊢
  by_cases hshort : c.remaining < 10
  · rw [if_pos hshort] at h
    cases h
  · have hlong : ¬(c.extend more).remaining < 10 := by omega
    rw [if_neg hshort] at h
    rw [if_neg hlong]
    have hmagic : IgnoresTail (do if (← Cursor.u4) ≠ magic then throw .badMagic) := by
      refine .bind Cursor.u4_ignoresTail fun number => ?_
      split
      · exact .throw .badMagic
      · exact .pure ()
    exact hmagic c a c' more h

theorem readContents_ignoresTail : IgnoresTail readContents := by
  refine .bind Cursor.u2_ignoresTail fun minor => .bind Cursor.u2_ignoresTail fun major =>
    .bind ConstantPool.read_ignoresTail fun pool => .bind Cursor.u2_ignoresTail fun access =>
    .bind Cursor.u2_ignoresTail fun thisIndex => .bind (.lift _) fun thisClass =>
    .bind Cursor.u2_ignoresTail fun superIndex => ?_
  have hrest (superClass : Option Name) : IgnoresTail (do
      let interfaces ← Cursor.times (do pool.className (← Cursor.u2)) (← Cursor.u2)
      let fields ← Member.readAll pool
      let methods ← Member.readAll pool
      let attributes ← Attributes.read pool
      pure (⟨minor, major, pool, access, thisClass, superClass, interfaces, fields, methods,
        attributes⟩ : ClassFile)) := by
    refine .bind Cursor.u2_ignoresTail fun count =>
      .bind (.times (.bind Cursor.u2_ignoresTail fun _ => .lift _) count) fun interfaces => ?_
    exact .bind (Member.readAll_ignoresTail pool) fun fields =>
      .bind (Member.readAll_ignoresTail pool) fun methods =>
      .bind (Attributes.read_ignoresTail pool) fun attributes => .pure _
  split
  · exact .bind (.pure none) hrest
  · exact .bind (.map some (.lift _)) hrest

/-- **What is read of a class file does not depend on what follows it.** -/
theorem read_ignoresTail : IgnoresTail read :=
  readMagic_ignoresTail.bind fun _ => readContents_ignoresTail

/-! ### The end of a class file -/

theorem parse_eq_ok {bytes : Bytes} {classFile : ClassFile} :
    parse bytes = .ok classFile ↔
      ∃ c, read.run (Cursor.start bytes) = .ok (classFile, c) ∧ c.ahead = [] := by
  unfold parse
  cases h : read.run (Cursor.start bytes) with
  | error cause => simp [bind, Except.bind]
  | ok found =>
      obtain ⟨classFile', c⟩ := found
      cases hc : c.ahead with
      | nil =>
          simp only [bind, Except.bind, pure, Except.pure, hc, List.isEmpty_nil, if_true,
            Except.ok.injEq, Prod.mk.injEq]
          constructor
          · rintro rfl
            exact ⟨c, ⟨rfl, rfl⟩, hc⟩
          · rintro ⟨c', ⟨rfl, rfl⟩, -⟩
            rfl
      | cons b rest =>
          simp [bind, Except.bind, throw, throwThe, MonadExceptOf.throw, hc]

/-- Bytes added to a class file are counted and refused. -/
theorem parse_append {bytes more : Bytes} {classFile : ClassFile}
    (h : parse bytes = .ok classFile) (hmore : more ≠ []) :
    parse (bytes ++ more) = .error (.trailingBytes more.length) := by
  obtain ⟨c, hread, hend⟩ := parse_eq_ok.1 h
  have hextended := read_ignoresTail _ _ _ more hread
  have hstart : (Cursor.start bytes).extend more = Cursor.start (bytes ++ more) := rfl
  have hahead : (c.extend more).ahead = more := by simp [Cursor.extend, hend]
  rw [hstart] at hextended
  unfold parse
  rw [hextended]
  simp [bind, Except.bind, throw, throwThe, MonadExceptOf.throw, hahead, hmore]

/-- **The class files are prefix-free**: what begins with a class file and goes on is refused, and
so is every proper start of a class file. -/
theorem parse_prefix_free {bytes : Bytes} {classFile : ClassFile}
    (h : parse bytes = .ok classFile) :
    (∀ more, more ≠ [] → ∃ cause, parse (bytes ++ more) = .error cause) ∧
      (∀ front, front <+: bytes → front ≠ bytes → ∃ cause, parse front = .error cause) := by
  constructor
  · intro more hmore
    exact ⟨.trailingBytes more.length, parse_append h hmore⟩
  · rintro front ⟨more, rfl⟩ hne
    have hmore : more ≠ [] := by
      rintro rfl
      exact hne (List.append_nil front).symm
    cases hfront : parse front with
    | error cause => exact ⟨cause, rfl⟩
    | ok shorter =>
        rw [parse_append hfront hmore] at h
        cases h

/-- The class file of an empty class `A`. -/
def sample : Bytes :=
  [0xCA, 0xFE, 0xBA, 0xBE, 0, 0, 0, 52, 0, 3, 1, 0, 1, 65, 7, 0, 1, 0, 0x21, 0, 2, 0, 0, 0, 0,
    0, 0, 0, 0, 0, 0]

theorem parse_prefix_free_sample :
    (∃ classFile, parse sample = .ok classFile) ∧
      (∀ more, more ≠ [] → ∃ cause, parse (sample ++ more) = .error cause) ∧
      (∀ front, front <+: sample → front ≠ sample → ∃ cause, parse front = .error cause) := by
  have h : parse sample = .ok ⟨0, 52, ⟨[none, some (.utf8 [65]), some (.classRef 1)]⟩, 0x21, [65],
      none, [], [], [], []⟩ := by
    decide +kernel
  exact ⟨⟨_, h⟩, parse_prefix_free h⟩

end ClassFile

end Unjar
