import Unjar.Proofs.OrderedMap
import Unjar.Proofs.Xml.Reading
import Unjar.Xml.Entity

/-!
Entities opened.

An entity stands for a text, and the text is read like that of the document.  So what the values of
attributes and the markup hold once entities are opened is again what a document may hold, at every
depth of entities within entities.

Main definitions:

* `Unjar.Xml.Entities.IsSound`, `Unjar.Xml.Event.IsSound` — what entities and events are like.

Main results:

* `Unjar.Xml.Entities.isContent_of_attributeText?` — the values of attributes;
* `Unjar.Xml.Entities.isSound_of_events?` — **the events of a text**.
-/

set_option autoImplicit false

namespace Unjar.Xml

/-- **An event of a text that a document may hold.** -/
def Event.IsSound : Event → Prop
  | startTag name attributes => IsSoundTag name attributes
  | endTag _ => True
  | text content => IsContent content

theorem isSound_consCharacter {c : Char} {events : List Event} (hc : isCharacter c = true)
    (h : ∀ event ∈ events, event.IsSound) : ∀ event ∈ consCharacter c events, event.IsSound := by
  unfold consCharacter
  split
  · rw [List.forall_mem_cons] at h ⊢
    exact ⟨isContent_cons.mpr ⟨hc, h.1⟩, h.2⟩
  · rw [List.forall_mem_cons]
    exact ⟨isContent_cons.mpr ⟨hc, isContent_nil⟩, h⟩

namespace Entities

/-- **Entities that stand for texts that a document may hold.** -/
def IsSound (e : Entities) : Prop :=
  ∀ name t, (name, some t) ∈ e.texts → IsContent t

section

variable {e : Entities} {depth : Nat}

theorem isContent_of_attributeWithin? (he : e.IsSound) {pieces : List Piece} {t : Text}
    (hpieces : ∀ piece ∈ pieces, piece.IsContent) (h : e.attributeWithin? depth pieces = some t) :
    IsContent t := by
  fun_induction attributeWithin? e depth pieces generalizing t with
  | case1 =>
      cases h
      exact isContent_nil
  | case2 depth c more ih =>
      rw [List.forall_mem_cons] at hpieces
      simp only [Option.bind_eq_bind, Option.bind_eq_some_iff, Option.pure_def,
        Option.some.injEq] at h
      obtain ⟨c', hc, rest, hrest, rfl⟩ := h
      refine isContent_cons.mpr ⟨?_, ih hpieces.2 hrest⟩
      unfold attributeCharacter? at hc
      split at hc
      · cases hc
      · cases hc
        split
        · rfl
        · exact hpieces.1
  | case3 depth c more ih =>
      rw [List.forall_mem_cons] at hpieces
      simp only [Option.bind_eq_bind, Option.bind_eq_some_iff, Option.pure_def,
        Option.some.injEq] at h
      obtain ⟨rest, hrest, rfl⟩ := h
      exact isContent_cons.mpr ⟨hpieces.1, ih hpieces.2 hrest⟩
  | case4 => cases h
  | case5 depth name more _ text hget ihmore =>
      rename_i ihinner
      rw [List.forall_mem_cons] at hpieces
      obtain ⟨read, hread, h⟩ := Option.bind_eq_some_iff.mp h
      obtain ⟨inner, hinner, h⟩ := Option.bind_eq_some_iff.mp h
      obtain ⟨rest, hrest, h⟩ := Option.bind_eq_some_iff.mp h
      cases h
      have htext : IsContent text := he name text (OrderedMap.mem_of_get? hget)
      rw [isContent_append]
      exact ⟨ihinner read (Piece.isContent_of_read? htext hread) hinner, ihmore hpieces.2 hrest⟩
  | case6 => cases h
  | case7 depth name more _ hget hopen =>
      rename_i ihmore
      rw [List.forall_mem_cons] at hpieces
      obtain ⟨inner, hinner, h⟩ := Option.bind_eq_some_iff.mp h
      cases hinner
      obtain ⟨rest, hrest, h⟩ := Option.bind_eq_some_iff.mp h
      cases h
      exact ihmore hpieces.2 hrest
  | case8 => cases h

/-- **The values of attributes.** -/
theorem isContent_of_attributeText? (he : e.IsSound) {pieces : List Piece} {t : Text}
    (hpieces : ∀ piece ∈ pieces, piece.IsContent) (h : e.attributeText? pieces = some t) :
    IsContent t :=
  isContent_of_attributeWithin? he hpieces h

/-! ### Markup -/

/-- The events of pieces, if those of the markup one level deeper are known. -/
theorem isSound_of_piecesWithin? (he : e.IsSound)
    (hbelow : ∀ below, depth = below + 1 → ∀ tokens events, (∀ token ∈ tokens, token.IsSound) →
      e.eventsWithin? below tokens = some events → ∀ event ∈ events, event.IsSound)
    {pieces : List Piece} {events : List Event} (hpieces : ∀ piece ∈ pieces, piece.IsContent)
    (h : e.piecesWithin? depth pieces = some events) : ∀ event ∈ events, event.IsSound := by
  induction pieces generalizing events with
  | nil =>
      simp only [piecesWithin?, Option.some.injEq] at h
      simp [← h]
  | cons piece pieces ih =>
      rw [List.forall_mem_cons] at hpieces
      cases piece with
      | plain c =>
          rw [piecesWithin?] at h
          obtain ⟨more, hmore, h⟩ := Option.bind_eq_some_iff.mp h
          cases h
          exact isSound_consCharacter hpieces.1 (ih hpieces.2 hmore)
      | referred c =>
          rw [piecesWithin?] at h
          obtain ⟨more, hmore, h⟩ := Option.bind_eq_some_iff.mp h
          cases h
          exact isSound_consCharacter hpieces.1 (ih hpieces.2 hmore)
      | entity name =>
          cases depth with
          | zero => simp [piecesWithin?] at h
          | succ below =>
              rw [piecesWithin?] at h
              obtain ⟨text, htext, h⟩ := Option.bind_eq_some_iff.mp h
              obtain ⟨tokens, htokens, h⟩ := Option.bind_eq_some_iff.mp h
              obtain ⟨inner, hinner, h⟩ := Option.bind_eq_some_iff.mp h
              split at h
              · cases h
              · obtain ⟨more, hmore, h⟩ := Option.bind_eq_some_iff.mp h
                cases h
                have hcontent : IsContent text :=
                  he name text (OrderedMap.mem_of_get? (Option.join_eq_some_iff.mp htext))
                rw [List.forall_mem_append]
                refine ⟨?_, ih hpieces.2 hmore⟩
                exact hbelow below rfl tokens inner (isSound_of_tokens? hcontent htokens) hinner

/-- The events of tokens, at every depth. -/
theorem isSound_of_eventsWithin? (he : e.IsSound) {tokens : List Token} {events : List Event}
    (htokens : ∀ token ∈ tokens, token.IsSound) (h : e.eventsWithin? depth tokens = some events) :
    ∀ event ∈ events, event.IsSound := by
  induction depth using Nat.strongRecOn generalizing tokens events with
  | ind depth ihdepth =>
      induction tokens generalizing events with
      | nil =>
          simp only [eventsWithin?, Option.some.injEq] at h
          simp [← h]
      | cons token tokens ih =>
          rw [List.forall_mem_cons] at htokens
          cases token with
          | startTag name attributes =>
              rw [eventsWithin?] at h
              obtain ⟨more, hmore, h⟩ := Option.bind_eq_some_iff.mp h
              cases h
              exact List.forall_mem_cons.mpr ⟨htokens.1, ih htokens.2 hmore⟩
          | endTag name =>
              rw [eventsWithin?] at h
              obtain ⟨more, hmore, h⟩ := Option.bind_eq_some_iff.mp h
              cases h
              exact List.forall_mem_cons.mpr ⟨trivial, ih htokens.2 hmore⟩
          | literal content =>
              rw [eventsWithin?] at h
              obtain ⟨more, hmore, h⟩ := Option.bind_eq_some_iff.mp h
              cases h
              exact List.forall_mem_cons.mpr ⟨htokens.1, ih htokens.2 hmore⟩
          | text pieces =>
              rw [eventsWithin?] at h
              obtain ⟨inner, hinner, h⟩ := Option.bind_eq_some_iff.mp h
              obtain ⟨more, hmore, h⟩ := Option.bind_eq_some_iff.mp h
              cases h
              rw [List.forall_mem_append]
              refine ⟨isSound_of_piecesWithin? he ?_ htokens.1 hinner, ih htokens.2 hmore⟩
              rintro below rfl tokens events htokens hevents
              exact ihdepth below (Nat.lt_succ_self below) htokens hevents

/-- **The events of a text**, given its tokens. -/
theorem isSound_of_events? (he : e.IsSound) {tokens : List Token} {events : List Event}
    (htokens : ∀ token ∈ tokens, token.IsSound) (h : e.events? tokens = some events) :
    ∀ event ∈ events, event.IsSound :=
  isSound_of_eventsWithin? he htokens h

end

end Entities

end Unjar.Xml
