import SqlMetrics.Proofs.Json.Digits
import SqlMetrics.Proofs.Json.Meaning
import SqlMetrics.Proofs.Json.Written

/-! # Compact texts are decoded

The document of a JSON value can be skipped (`skipFault?_document`), and the value of a document
whose numbers are integers is decoded from its compact text as the same value
(`decode_compact`). -/
set_option autoImplicit false
namespace SqlMetrics

namespace Json

mutual

def AllWhole : Json → Prop
  | .number (.whole _) => True
  | .number (.real _) => False
  | .array items => ItemsWhole items
  | .object members => MembersWhole members
  | .null | .bool _ | .text _ => True

def ItemsWhole : List Json → Prop
  | [] => True
  | item :: rest => item.AllWhole ∧ ItemsWhole rest

def MembersWhole : List (String × Json) → Prop
  | [] => True
  | (_, value) :: rest => value.AllWhole ∧ MembersWhole rest

end

theorem membersWhole_iff {members : List (String × Json)} :
    MembersWhole members ↔ ∀ member ∈ members, member.2.AllWhole := by
  induction members with
  | nil => simp [MembersWhole]
  | cons member rest ih => rw [MembersWhole, ih, List.forall_mem_cons]

end Json

namespace Document

open Json

/-! ## Skipped values -/

-- A value has no fault at any depth, so the induction is on the value again.
mutual

theorem skipFault?_document : ∀ json : Json, json.document.skipFault? = none
  | .null | .bool _ | .text _ => rfl
  | .number (.whole _) => rfl
  | .number (.real value) => by
      rw [Json.document, numberDocument]
      split <;> rfl
  | .array items => by
      rw [Json.document, skipFault?, skipItemsFault?_itemDocuments items]
      rfl
  | .object members => by
      rw [Json.document, skipFault?, skipMembersFault?_memberDocuments members]
      rfl

theorem skipItemsFault?_itemDocuments :
    ∀ items : List Json, skipItemsFault? (itemDocuments items) = none
  | [] => rfl
  | item :: rest => by
      rw [itemDocuments, skipItemsFault?, skipFault?_document item,
        skipItemsFault?_itemDocuments rest]
      rfl

theorem skipMembersFault?_memberDocuments :
    ∀ members : List (String × Json),
      skipMembersFault? (memberDocuments members) = none
  | [] => rfl
  | (name, value) :: rest => by
      rw [memberDocuments, skipMembersFault?, skipFault?_document value,
        skipMembersFault?_memberDocuments rest]
      rfl

end

/-! ## Values without fractions -/

theorem memberValues?_memberDocuments {members : List (String × Json)} {bound : Nat}
    (own : ∀ member ∈ members, member.2.document.value? = some member.2 ∧
      member.2.document.nesting ≤ bound) :
    memberValues? (memberDocuments members) = some members ∧
      membersNesting (memberDocuments members) ≤ bound := by
  induction members with
  | nil => exact ⟨rfl, Nat.zero_le bound⟩
  | cons member rest ih =>
      obtain ⟨value, shallow⟩ := own member List.mem_cons_self
      obtain ⟨values, others⟩ := ih fun other among => own other (List.mem_cons_of_mem member among)
      rw [memberDocuments, memberValues?, membersNesting, value, values]
      exact ⟨rfl, max_le shallow others⟩

mutual

/-- A value without fractions is the value of its own document, which is not nested deeper. -/
theorem value?_document : ∀ (document : Document) {json : Json}, document.value? = some json →
    json.AllWhole → json.document.value? = some json ∧ json.document.nesting ≤ document.nesting
  | .null, json, found, whole => by
      cases found
      exact ⟨rfl, le_refl _⟩
  | .bool value, json, found, whole => by
      cases found
      exact ⟨rfl, le_refl _⟩
  | .number numeral, json, found, whole => by
      obtain ⟨number, value, rfl⟩ := Option.map_eq_some_iff.mp found
      cases number with
      | real value => exact whole.elim
      | whole number =>
          obtain ⟨least, greatest⟩ := Numeral.range_of_value? value
          refine ⟨?_, le_refl _⟩
          rw [Json.document, numberDocument, value?, Numeral.value?_ofInt least greatest]
          rfl
  | .text string, json, found, whole => by
      obtain ⟨value, -, rfl⟩ := Option.map_eq_some_iff.mp found
      exact ⟨rfl, le_refl _⟩
  | .array items none, json, found, whole => by
      rw [value?] at found
      obtain ⟨values, read, rfl⟩ := Option.map_eq_some_iff.mp found
      obtain ⟨own, shallow⟩ := itemValues?_itemDocuments items read whole
      rw [Json.document, value?, nesting, nesting, own]
      exact ⟨rfl, Nat.succ_le_succ shallow⟩
  | .array items (some breakage), json, found, whole => by
      rw [value?] at found
      cases found
  | .object members none, json, found, whole => by
      rw [value?] at found
      obtain ⟨values, read, rfl⟩ := Option.map_eq_some_iff.mp found
      rw [AllWhole, membersWhole_iff] at whole
      obtain ⟨own, shallow⟩ := memberValues?_memberDocuments fun member among =>
        memberValue?_document members read member (mem_of_mem_sortMembers among)
          (whole member among)
      rw [Json.document, value?, nesting, nesting, own, Option.map_some,
        sortMembers_of_ascending (ascending_sortMembers values)]
      exact ⟨rfl, Nat.succ_le_succ shallow⟩
  | .object members (some breakage), json, found, whole => by
      rw [value?] at found
      cases found
  | .broken breakage, json, found, whole => by cases found

theorem itemValues?_itemDocuments : ∀ (items : List Document) {values : List Json},
    itemValues? items = some values → ItemsWhole values →
    itemValues? (itemDocuments values) = some values ∧
      itemsNesting (itemDocuments values) ≤ itemsNesting items
  | [], values, found, whole => by
      cases found
      exact ⟨rfl, le_refl _⟩
  | item :: rest, values, found, whole => by
      rw [itemValues?] at found
      obtain ⟨value, first, found⟩ := Option.bind_eq_some_iff.mp found
      obtain ⟨others, later, found⟩ := Option.bind_eq_some_iff.mp found
      cases found
      obtain ⟨own, shallow⟩ := value?_document item first whole.1
      obtain ⟨ownRest, shallowRest⟩ := itemValues?_itemDocuments rest later whole.2
      rw [itemDocuments, itemValues?, itemsNesting, itemsNesting, own, ownRest]
      exact ⟨rfl, max_le_max shallow shallowRest⟩

theorem memberValue?_document : ∀ (members : List Member)
    {values : List (String × Json)}, memberValues? members = some values →
    ∀ member ∈ values, member.2.AllWhole → member.2.document.value? = some member.2 ∧
      member.2.document.nesting ≤ membersNesting members
  | [], values, found, member, among, whole => by
      cases found
      cases among
  | (name, document) :: rest, values, found, member, among, whole => by
      rw [memberValues?] at found
      obtain ⟨text, -, found⟩ := Option.bind_eq_some_iff.mp found
      obtain ⟨value, first, found⟩ := Option.bind_eq_some_iff.mp found
      obtain ⟨others, later, found⟩ := Option.bind_eq_some_iff.mp found
      cases found
      rw [membersNesting]
      rcases List.mem_cons.mp among with rfl | among
      · obtain ⟨own, shallow⟩ := value?_document document first whole
        exact ⟨own, le_max_of_le_left shallow⟩
      · obtain ⟨own, shallow⟩ := memberValue?_document rest later member among whole
        exact ⟨own, le_max_of_le_right shallow⟩

end

theorem decode_compact {json : Json} (own : json.document.value? = some json)
    (shallow : json.document.nesting < depthLimit) :
    decode (toJson 0) (String.ofList json.compact) = .ok json := by
  have read := toOption_toJson json.document (show 0 < depthLimit by decide)
  rw [Nat.zero_add, if_pos shallow, own] at read
  rw [decode, read_compact]
  cases value : toJson 0 json.document with
  | error fault =>
      rw [value] at read
      cases read
  | ok found =>
      rw [value] at read
      cases read
      dsimp only
      rw [value]
      rfl

end Document
end SqlMetrics
