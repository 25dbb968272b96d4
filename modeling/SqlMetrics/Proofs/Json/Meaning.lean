import Mathlib.Data.List.Forall2
import Mathlib.Data.String.Basic
import SqlMetrics.Json.Reading
import SqlMetrics.Proofs.Lookup

/-! # The values of documents

A document has a value (`Document.value?`) unless a number is beyond the doubles, an escape stands
for no character, or the text is broken.  The reader yields that value as long as no more groups are
nested than it allows (`toOption_toJson`).  The members of an object become a table sorted by name,
in which the last member of each name is found (`lookup_sortMembers`). -/
set_option autoImplicit false
namespace SqlMetrics
namespace Document

/-! ## Members -/

section Members
variable {name other : String} {value : Json} {members sorted : List (String × Json)}

theorem lookup_setMember : (setMember name value sorted).lookup other =
    if other = name then some value else sorted.lookup other := by
  induction sorted with
  | nil => rw [setMember, lookup_cons_eq]
  | cons member rest ih =>
      rw [setMember]
      by_cases found : other = name
      · rw [if_pos found] at ih ⊢
        split_ifs with same less
        · rw [lookup_cons_eq, if_pos found]
        · rw [lookup_cons_eq, if_pos found]
        · rw [lookup_cons_eq, if_neg (found ▸ same), ih]
      · rw [if_neg found] at ih ⊢
        split_ifs with same less
        · rw [lookup_cons_eq, lookup_cons_eq, if_neg found, ← same, if_neg found]
        · rw [lookup_cons_eq, if_neg found]
        · rw [lookup_cons_eq, lookup_cons_eq, ih]

/-- Of members with one name the last counts. -/
theorem lookup_sortMembers (members : List (String × Json)) (name : String) :
    (sortMembers members).lookup name = members.reverse.lookup name := by
  have general (sorted : List (String × Json)) :
      (members.foldl (fun sorted member => setMember member.1 member.2 sorted) sorted).lookup name =
        (members.reverse.lookup name).or (sorted.lookup name) := by
    induction members generalizing sorted with
    | nil => rfl
    | cons member rest ih =>
        rw [List.foldl_cons, ih, lookup_setMember, List.reverse_cons, List.lookup_append,
          Option.or_assoc, lookup_cons_eq]
        split_ifs <;> rfl
  rw [sortMembers, general]
  exact Option.or_none

theorem mem_setMember {member : String × Json} (among : member ∈ setMember name value sorted) :
    member = (name, value) ∨ member ∈ sorted := by
  induction sorted with
  | nil => exact .inl (List.mem_singleton.mp among)
  | cons first rest ih =>
      rw [setMember] at among
      split_ifs at among with same less
      · exact (List.mem_cons.mp among).imp_right (List.mem_cons_of_mem first)
      · exact List.mem_cons.mp among
      · rcases List.mem_cons.mp among with rfl | among
        · exact .inr List.mem_cons_self
        · exact (ih among).imp_right (List.mem_cons_of_mem first)

theorem mem_foldl_setMember {member : String × Json}
    (among : member ∈
      members.foldl (fun sorted member => setMember member.1 member.2 sorted) sorted) :
    member ∈ members ∨ member ∈ sorted := by
  induction members generalizing sorted with
  | nil => exact .inr among
  | cons first rest ih =>
      rcases ih among with later | here
      · exact .inl (List.mem_cons_of_mem first later)
      · rcases mem_setMember here with rfl | before
        · exact .inl List.mem_cons_self
        · exact .inr before

theorem mem_of_mem_sortMembers {member : String × Json} (among : member ∈ sortMembers members) :
    member ∈ members :=
  (mem_foldl_setMember among).resolve_right List.not_mem_nil

/-- The names of a table stand in ascending order, each once. -/
def Ascending (members : List (String × Json)) : Prop :=
  (members.map Prod.fst).Pairwise (· < ·)

theorem mem_names_setMember : other ∈ (setMember name value sorted).map Prod.fst ↔
    other = name ∨ other ∈ sorted.map Prod.fst := by
  induction sorted with
  | nil => simp [setMember]
  | cons member rest ih =>
      rw [setMember]
      split_ifs with same less
      · simp [same]
      · simp
      · simp only [List.map_cons, List.mem_cons, ih]
        tauto

theorem ascending_setMember (ascending : Ascending sorted) :
    Ascending (setMember name value sorted) := by
  induction sorted with
  | nil => exact List.pairwise_singleton _ _
  | cons member rest ih =>
      obtain ⟨least, later⟩ := List.pairwise_cons.mp ascending
      rw [setMember]
      split_ifs with same less
      · subst same
        exact ascending
      · refine List.pairwise_cons.mpr ⟨?_, ascending⟩
        intro other among
        rcases List.mem_cons.mp among with rfl | among
        · exact less
        · exact less.trans (least other among)
      · refine List.pairwise_cons.mpr ⟨?_, ih later⟩
        intro other among
        rcases mem_names_setMember.mp among with rfl | among
        · exact lt_of_le_of_ne (not_lt.mp less) (Ne.symm same)
        · exact least other among

theorem ascending_sortMembers (members : List (String × Json)) :
    Ascending (sortMembers members) := by
  have general (sorted : List (String × Json)) (ascending : Ascending sorted) : Ascending
      (members.foldl (fun sorted member => setMember member.1 member.2 sorted) sorted) := by
    induction members generalizing sorted with
    | nil => exact ascending
    | cons member rest ih => exact ih _ (ascending_setMember ascending)
  exact general [] List.Pairwise.nil

theorem setMember_of_greatest (greatest : ∀ other ∈ sorted.map Prod.fst, other < name) :
    setMember name value sorted = sorted ++ [(name, value)] := by
  induction sorted with
  | nil => rfl
  | cons member rest ih =>
      have above := greatest member.1 List.mem_cons_self
      rw [setMember, if_neg above.ne', if_neg above.not_gt,
        ih fun other among => greatest other (List.mem_cons_of_mem _ among)]
      rfl

theorem sortMembers_of_ascending (ascending : Ascending members) :
    sortMembers members = members := by
  have general (sorted : List (String × Json)) (whole : Ascending (sorted ++ members)) :
      members.foldl (fun sorted member => setMember member.1 member.2 sorted) sorted =
        sorted ++ members := by
    induction members generalizing sorted with
    | nil => exact (List.append_nil sorted).symm
    | cons member rest ih =>
        have greatest : ∀ other ∈ sorted.map Prod.fst, other < member.1 := by
          intro other among
          rw [Ascending, List.map_append, List.pairwise_append] at whole
          exact whole.2.2 other among member.1 List.mem_cons_self
        rw [List.append_cons] at whole
        rw [List.foldl_cons, setMember_of_greatest greatest,
          ih (List.pairwise_cons.mp ascending).2 _ whole, List.append_assoc]
        rfl
  exact general [] ascending

end Members

/-! ## Values -/

mutual

def value? : Document → Option Json
  | .null => some .null
  | .bool value => some (.bool value)
  | .number numeral => numeral.value?.map .number
  | .text value => value.toOption.map .text
  | .array items none => (itemValues? items).map .array
  | .object members none => (memberValues? members).map fun values => .object (sortMembers values)
  | .array _ (some _) => none
  | .object _ (some _) => none
  | .broken _ => none

def itemValues? : List Document → Option (List Json)
  | [] => some []
  | item :: rest => do
      let value ← item.value?
      let others ← itemValues? rest
      return value :: others

def memberValues? : List Member → Option (List (String × Json))
  | [] => some []
  | (name, document) :: rest => do
      let name ← name.toOption
      let value ← document.value?
      let others ← memberValues? rest
      return (name, value) :: others

end

mutual

/-- How many groups of a document are open at the same time. -/
def nesting : Document → Nat
  | .array items _ => itemsNesting items + 1
  | .object members _ => membersNesting members + 1
  | .null | .bool _ | .number _ | .text _ | .broken _ => 0

def itemsNesting : List Document → Nat
  | [] => 0
  | item :: rest => max item.nesting (itemsNesting rest)

def membersNesting : List Member → Nat
  | [] => 0
  | (_, document) :: rest => max document.nesting (membersNesting rest)

end

/-! ## Reading values -/

theorem toOption_bind {α β ε : Type} (first : Except ε α) (next : α → Except ε β) :
    (first >>= next).toOption = first.toOption >>= fun value => (next value).toOption := by
  cases first <;> rfl

theorem toOption_map {α β ε : Type} (first : Except ε α) (change : α → β) :
    (first.map change).toOption = first.toOption.map change := by
  cases first <;> rfl

theorem toOption_numberOf (numeral : Numeral) : (numberOf numeral).toOption = numeral.value? := by
  rw [numberOf]
  split
  · rename_i noValue
    rw [noValue]
    rfl
  · rename_i valued
    rw [valued]
    rfl

-- The induction is on the document; the depth grows with each group that is opened.
mutual

/-- The reader yields the value of a document that is not nested too deep. -/
theorem toOption_toJson : ∀ (document : Document) {depth : Nat}, depth < depthLimit →
    (toJson depth document).toOption =
      if depth + document.nesting < depthLimit then document.value? else none
  | .null, depth, shallow => by
      rw [nesting, Nat.add_zero, if_pos shallow]
      rfl
  | .bool value, depth, shallow => by
      rw [nesting, Nat.add_zero, if_pos shallow]
      rfl
  | .number numeral, depth, shallow => by
      rw [nesting, Nat.add_zero, if_pos shallow, toJson, toOption_map, toOption_numberOf]
      rfl
  | .text value, depth, shallow => by
      rw [nesting, Nat.add_zero, if_pos shallow, toJson, toOption_map]
      rfl
  | .array items none, depth, shallow => by
      rw [toJson, nesting, value?, ← Nat.add_assoc, Nat.add_right_comm]
      by_cases deeper : depth + 1 < depthLimit
      · have read := toOption_itemsToJson items deeper
        rw [if_pos deeper, toOption_bind, read]
        split_ifs
        · cases itemValues? items <;> rfl
        · rfl
      · rw [if_neg deeper, if_neg (by omega)]
        rfl
  | .array items (some breakage), depth, shallow => by
      rw [toJson, value?, ite_self]
      by_cases deeper : depth + 1 < depthLimit
      · rw [if_pos deeper, toOption_bind]
        cases (itemsToJson (depth + 1) items).toOption <;> rfl
      · rw [if_neg deeper]
        rfl
  | .object members none, depth, shallow => by
      rw [toJson, nesting, value?, ← Nat.add_assoc, Nat.add_right_comm]
      by_cases deeper : depth + 1 < depthLimit
      · have read := toOption_membersToJson members deeper
        rw [if_pos deeper, toOption_bind, read]
        split_ifs
        · cases memberValues? members <;> rfl
        · rfl
      · rw [if_neg deeper, if_neg (by omega)]
        rfl
  | .object members (some breakage), depth, shallow => by
      rw [toJson, value?, ite_self]
      by_cases deeper : depth + 1 < depthLimit
      · rw [if_pos deeper, toOption_bind]
        cases (membersToJson (depth + 1) members).toOption <;> rfl
      · rw [if_neg deeper]
        rfl
  | .broken breakage, depth, shallow => by
      rw [nesting, Nat.add_zero, if_pos shallow]
      rfl

theorem toOption_itemsToJson : ∀ (items : List Document) {depth : Nat}, depth < depthLimit →
    (itemsToJson depth items).toOption =
      if depth + itemsNesting items < depthLimit then itemValues? items else none
  | [], depth, shallow => by
      rw [itemsNesting, Nat.add_zero, if_pos shallow]
      rfl
  | item :: rest, depth, shallow => by
      have first := toOption_toJson item shallow
      have others := toOption_itemsToJson rest shallow
      rw [itemsToJson, itemsNesting, itemValues?, toOption_bind, first]
      simp only [toOption_bind, others]
      by_cases one : depth + item.nesting < depthLimit
      · by_cases more : depth + itemsNesting rest < depthLimit
        · rw [if_pos one, if_pos more, if_pos (by omega)]
          rfl
        · rw [if_pos one, if_neg more, if_neg (by omega)]
          cases item.value? <;> rfl
      · have deep : ¬ depth + max item.nesting (itemsNesting rest) < depthLimit := by omega
        rw [if_neg one, if_neg deep]
        rfl

theorem toOption_membersToJson : ∀ (members : List Member)
    {depth : Nat}, depth < depthLimit →
    (membersToJson depth members).toOption =
      if depth + membersNesting members < depthLimit then memberValues? members else none
  | [], depth, shallow => by
      rw [membersNesting, Nat.add_zero, if_pos shallow]
      rfl
  | (name, document) :: rest, depth, shallow => by
      have first := toOption_toJson document shallow
      have others := toOption_membersToJson rest shallow
      rw [membersToJson, membersNesting, memberValues?]
      simp only [toOption_bind, first, others]
      by_cases one : depth + document.nesting < depthLimit
      · by_cases more : depth + membersNesting rest < depthLimit
        · rw [if_pos one, if_pos more, if_pos (by omega)]
          rfl
        · rw [if_pos one, if_neg more, if_neg (by omega)]
          cases name.toOption <;> cases document.value? <;> rfl
      · have deep : ¬ depth + max document.nesting (membersNesting rest) < depthLimit := by omega
        rw [if_neg one, if_neg deep]
        cases name.toOption <;> rfl

end

/-! ## Tables of objects -/

def members? : Document → Option (List (String × Json))
  | .object members none => memberValues? members
  | .object _ (some _) => none
  | .null | .bool _ | .number _ | .text _ | .array _ _ | .broken _ => none

theorem toOption_toMembers (item : Document) : (toMembers 1 item).toOption =
    if 1 + item.nesting < depthLimit then item.members?.map sortMembers else none := by
  cases item with
  | object members ending =>
      have read := toOption_membersToJson members (show 2 < depthLimit by decide)
      have depth : 1 + (membersNesting members + 1) = 2 + membersNesting members := by omega
      rw [toMembers, toOption_bind, read, nesting, depth]
      cases ending with
      | none =>
          rw [members?]
          split_ifs
          · cases memberValues? members <;> rfl
          · rfl
      | some breakage =>
          rw [members?, Option.map_none, ite_self]
          split_ifs
          · cases memberValues? members <;> rfl
          · rfl
  | null | bool | number | text | array | broken =>
      rw [members?, Option.map_none, ite_self]
      rfl

theorem toOption_itemsToMembers (items : List Document) : (itemsToMembers 1 items).toOption =
    if 1 + itemsNesting items < depthLimit then (items.mapM members?).map (List.map sortMembers)
    else none := by
  induction items with
  | nil => rfl
  | cons item rest ih =>
      rw [itemsToMembers, itemsNesting, List.mapM_cons]
      simp only [toOption_bind, toOption_toMembers, ih]
      by_cases one : 1 + item.nesting < depthLimit
      · by_cases more : 1 + itemsNesting rest < depthLimit
        · rw [if_pos one, if_pos more, if_pos (by omega)]
          cases item.members? <;> cases rest.mapM members? <;> rfl
        · rw [if_pos one, if_neg more, if_neg (by omega)]
          cases item.members? <;> rfl
      · have deep : ¬ 1 + max item.nesting (itemsNesting rest) < depthLimit := by omega
        rw [if_neg one, if_neg deep]
        rfl

def rows? : Document → Option (List (List (String × Json)))
  | .array items none => items.mapM members?
  | .array _ (some _) => none
  | .null | .bool _ | .number _ | .text _ | .object _ _ | .broken _ => none

theorem exists_forall₂ {α β : Type} {related : α → β → Prop} {items : List α} :
    (∃ values, List.Forall₂ related items values) ↔
      ∀ item ∈ items, ∃ value, related item value := by
  induction items with
  | nil => simp
  | cons item rest ih =>
      rw [List.forall_mem_cons, ← ih]
      simp only [List.forall₂_cons_left_iff]
      constructor
      · rintro ⟨_, value, values, first, others, rfl⟩
        exact ⟨⟨value, first⟩, values, others⟩
      · rintro ⟨⟨value, first⟩, values, others⟩
        exact ⟨value :: values, value, values, first, others, rfl⟩

theorem exists_item {items : List Document} {rows : List (List (String × Json))}
    {row : List (String × Json)} (found : items.mapM members? = some rows) (among : row ∈ rows) :
    ∃ item ∈ items, item.members? = some row := by
  induction items generalizing rows with
  | nil =>
      cases found
      cases among
  | cons item rest ih =>
      rw [List.mapM_cons] at found
      obtain ⟨first, values, found⟩ := Option.bind_eq_some_iff.mp found
      obtain ⟨others, later, found⟩ := Option.bind_eq_some_iff.mp found
      cases found
      rcases List.mem_cons.mp among with rfl | among
      · exact ⟨item, List.mem_cons_self, values⟩
      · obtain ⟨other, inside, members⟩ := ih later among
        exact ⟨other, List.mem_cons_of_mem item inside, members⟩

theorem nesting_le_itemsNesting {item : Document} {items : List Document} (among : item ∈ items) :
    item.nesting ≤ itemsNesting items := by
  induction items with
  | nil => cases among
  | cons first rest ih =>
      rw [itemsNesting]
      rcases List.mem_cons.mp among with rfl | among
      · exact le_max_left _ _
      · exact (ih among).trans (le_max_right _ _)

/-- A row of a table has the members of an object, which is nested less deep than the table. -/
theorem exists_members {document : Document} {rows : List (List (String × Json))}
    {row : List (String × Json)} (found : document.rows? = some rows) (among : row ∈ rows) :
    ∃ members, memberValues? members = some row ∧ membersNesting members < document.nesting := by
  cases document with
  | array items ending =>
      cases ending with
      | none =>
          obtain ⟨item, inside, values⟩ := exists_item found among
          have within := nesting_le_itemsNesting inside
          cases item with
          | object members ending =>
              cases ending with
              | none =>
                  exact ⟨members, values, Nat.lt_succ_of_lt within⟩
              | some breakage => cases values
          | null | bool | number | text | array | broken => cases values
      | some breakage => cases found
  | null | bool | number | text | object | broken => cases found

theorem toOption_toObjects (document : Document) : (toObjects document).toOption =
    if document.nesting < depthLimit then document.rows?.map (List.map sortMembers) else none := by
  cases document with
  | array items ending =>
      rw [toObjects, toOption_bind, toOption_itemsToMembers, nesting, Nat.add_comm 1]
      cases ending with
      | none =>
          rw [rows?]
          split_ifs
          · cases items.mapM members? <;> rfl
          · rfl
      | some breakage =>
          rw [rows?, Option.map_none, ite_self]
          split_ifs
          · cases items.mapM members? <;> rfl
          · rfl
  | null | bool | number | text | object | broken =>
      rw [rows?, Option.map_none, ite_self]
      rfl

/-- A text is read as a table of objects if the whole of it is an array of objects with values, and
no more groups are nested than the reader allows. -/
theorem toOption_decode {text : String} {document : Document} {more : Bool}
    (whole : read text = (document, more)) :
    (decode toObjects text).toOption =
      if more = false ∧ document.nesting < depthLimit then
        document.rows?.map (List.map sortMembers)
      else none := by
  have table := toOption_toObjects document
  rw [decode, whole]
  dsimp only
  rw [toOption_bind]
  cases more with
  | true =>
      simp only [Bool.true_eq_false, false_and, if_false, if_true]
      cases (toObjects document).toOption <;> rfl
  | false =>
      simp only [true_and, ← table, Bool.false_eq_true, if_false]
      cases (toObjects document).toOption <;> rfl

end Document
end SqlMetrics
