import Unjar.Archive

/-!
Stored archives.

An archive file is a row of records, one for each entry, behind which a directory repeats what they
tell.  A record holds the sizes of the entry's name, of its extra field and of its content, and then
these three.  Only entries that are stored as they are can be read, and only those whose sizes stand
in front of them.

Main definitions:

* `Unjar.StoredArchive.Record` — the sizes in a record;
* `Unjar.StoredArchive.entries?` — the entries in the bytes of a file.
-/

set_option autoImplicit false

namespace Unjar.StoredArchive

/-- A number whose lowest byte comes first. -/
def number : Bytes → Nat
  | [] => 0
  | b :: more => b.toNat + 256 * number more

/-- The number in the bytes of a record from one offset to another. -/
def numberAt (bytes : Bytes) (start stop : Nat) : Nat := number ((bytes.take stop).drop start)

/-- **The sizes in a record.** -/
structure Record where
  nameLength : Nat
  /-- The length of the extra field. -/
  extraLength : Nat
  contentLength : Nat

namespace Record

/-- The number of bytes in front of the name. -/
def headLength : Nat := 26

/-- The record at the start, behind its signature.  The method has to be that of stored entries, and
the sizes must not stand behind the content. -/
def ofBytes? (bytes : Bytes) : Option Record :=
  let flags := numberAt bytes 2 4
  let method := numberAt bytes 4 6
  if bytes.length < headLength || flags / 8 % 2 == 1 || method != 0 then none
  else some ⟨numberAt bytes 22 24, numberAt bytes 24 26, numberAt bytes 14 18⟩

/-- The number of bytes in front of the content. -/
def contentStart (r : Record) : Nat := headLength + r.nameLength + r.extraLength

/-- The number of bytes of the whole. -/
def length (r : Record) : Nat := r.contentStart + r.contentLength

def entry (r : Record) (bytes : Bytes) : Text × Bytes :=
  (Utf8.decodeLossy ((bytes.drop headLength).take r.nameLength),
    (bytes.drop r.contentStart).take r.contentLength)

end Record

/-- **The entries in the bytes of a file**, if it is a stored archive. -/
def entries? : Bytes → Option ArchiveContent
  | 0x50 :: 0x4B :: 0x03 :: 0x04 :: bytes =>
    match Record.ofBytes? bytes with
    | some r =>
      if bytes.length < r.length then none
      else (entries? (bytes.drop r.length)).map (r.entry bytes :: ·)
    | none => none
  | 0x50 :: 0x4B :: 0x01 :: 0x02 :: _ | 0x50 :: 0x4B :: 0x05 :: 0x06 :: _ => some []
  | _ => none
termination_by bytes => bytes.length
decreasing_by
  simp only [List.length_cons, List.length_drop]
  omega

end Unjar.StoredArchive
