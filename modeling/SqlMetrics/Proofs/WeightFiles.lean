import Mathlib.Data.List.Induction
import Mathlib.Data.List.Nodup
import SqlMetrics.Proofs.Json.Compact
import SqlMetrics.Proofs.Json.Precision
import SqlMetrics.Proofs.Json.ReadNumbers
import SqlMetrics.Weights

/-! # Weights files

A weights file changes exactly the weights it names.  An object is accepted if its members name
different weights and give numbers for them, and otherwise it is refused for its first member that
does not (`setMembers_eq_error`).  The order of the members does not count.  A few numbers just
below the greatest double are refused too (`great_weight_refused`). -/
set_option autoImplicit false
namespace SqlMetrics

/-- A document is a number with this double. -/
def Document.IsNumber (document : Document) (value : Float) : Prop :=
  ∃ numeral number, document = .number numeral ∧ numeral.value? = some number ∧
    number.toFloat = value

/-- A member names a weight and gives a number for it. -/
def Member.Gives (member : Member) (weight : Weight) (value : Float) : Prop :=
  member.1 = .ok weight.name ∧ member.2.IsNumber value

/-- The members name different weights and give numbers for them. -/
structure Member.Accepted (members : List Member) : Prop where
  gives : ∀ member ∈ members, ∃ weight value, member.Gives weight value
  distinct : (members.map Prod.fst).Nodup

/-- What members change, in their order. -/
def Member.Changes : List Member → List (Weight × Float) → Prop :=
  List.Forall₂ fun member change => member.Gives change.1 change.2

/-- Why a member is refused behind others: its name cannot be read, is no weight's or is repeated,
or it gives no number. -/
def Member.fault? (front : List Member) (member : Member) : Option JsonFault :=
  match member.1 with
  | .error fault => some fault
  | .ok name =>
      if Weight.ofName? name = none then some .unsuitable
      else if .ok name ∈ front.map Prod.fst then some .unsuitable
      else match Weights.numberIn member.2 with
        | .error fault => some fault
        | .ok _ => none

/-! ## Names of weights -/

namespace Weight

theorem mem_all (weight : Weight) : weight ∈ all := by
  rcases weight with (feature | _ | _)
  · cases feature <;> decide
  · decide
  · decide

theorem names_distinct : (all.map name).Nodup := by decide

theorem ofName?_name (weight : Weight) : ofName? weight.name = some weight :=
  find?_name names_distinct weight.mem_all

theorem name_of_ofName? {text : String} {weight : Weight} (found : ofName? text = some weight) :
    weight.name = text := by
  rw [ofName?] at found
  simpa using List.find?_some found

theorem name_injective : Function.Injective name :=
  fun first second => List.inj_on_of_nodup_map names_distinct first.mem_all second.mem_all

end Weight

/-! ## Changed weights -/

namespace Weights

theorem get_set (weights : Weights) (weight other : Weight) (value : Float) :
    (weights.set weight value).get other = if other = weight then value else weights.get other := by
  split_ifs with same
  · subst same
    rcases other with (feature | _ | _)
    · cases feature <;> rfl
    · rfl
    · rfl
  · rcases weight with (feature | _ | _) <;> rcases other with (counted | _ | _)
    case neg.feature.feature =>
      cases feature <;> cases counted <;> first | rfl | exact absurd rfl same
    case neg.feature.lines | neg.feature.characters => cases feature <;> rfl
    case neg.lines.feature | neg.characters.feature => cases counted <;> rfl
    case neg.lines.characters | neg.characters.lines => rfl
    case neg.lines.lines | neg.characters.characters => exact absurd rfl same

theorem ext_get {first second : Weights} (same : ∀ weight, first.get weight = second.get weight) :
    first = second := by
  cases first
  cases second
  congr 1
  · exact same (.feature .joins)
  · exact same (.feature .subqueries)
  · exact same (.feature .whereConditions)
  · exact same (.feature .functions)
  · exact same (.feature .tables)
  · exact same (.feature .groupBy)
  · exact same (.feature .orderBy)
  · exact same .lines
  · exact same .characters

def setAll (weights : Weights) (changes : List (Weight × Float)) : Weights :=
  changes.foldl (fun weights change => weights.set change.1 change.2) weights

section Changes
variable {weights : Weights} {changes : List (Weight × Float)} {weight : Weight} {value : Float}

theorem get_setAll_of_not_mem (absent : weight ∉ changes.map Prod.fst) :
    (weights.setAll changes).get weight = weights.get weight :=
  get_foldl_set_of_not_mem get set (fun _ _ weights other => get_set weights _ other _) absent

theorem get_setAll_of_mem (distinct : (changes.map Prod.fst).Nodup)
    (among : (weight, value) ∈ changes) : (weights.setAll changes).get weight = value :=
  get_foldl_set_of_mem get set (fun _ _ weights other => get_set weights _ other _) distinct among

end Changes

/-! ## Members -/

section Members
variable {weights : Weights} {seen : List Weight} {front behind members : List Member}
  {member : Member} {changes : List (Weight × Float)} {fault : JsonFault} {value : Float}
  {document : Document}

theorem numberIn_eq_ok : numberIn document = .ok value ↔ document.IsNumber value := by
  rw [Document.IsNumber]
  cases document with
  | number numeral =>
      rw [numberIn, Document.numberOf]
      cases value : numeral.value? <;> simp [Except.map, value]
  | null | bool | text | array | object | broken => simp [numberIn]

theorem setMembers_append
    (gives : Member.Changes front changes)
    (distinct : (changes.map Prod.fst).Nodup)
    (fresh : ∀ weight ∈ changes.map Prod.fst, weight ∉ seen) :
    setMembers weights seen (front ++ behind) =
      setMembers (weights.setAll changes) ((changes.map Prod.fst).reverse ++ seen) behind := by
  induction gives generalizing weights seen with
  | nil => rfl
  | @cons member change front changes first _ ih =>
      obtain ⟨name, document⟩ := member
      obtain ⟨weight, value⟩ := change
      obtain ⟨rfl, number⟩ := first
      obtain ⟨other, others⟩ := List.nodup_cons.mp distinct
      have unseen : seen.contains weight = false := by
        simpa using fresh weight List.mem_cons_self
      have read : setMembers weights seen (((.ok weight.name, document) :: front) ++ behind) =
          setMembers (weights.set weight value) (weight :: seen) (front ++ behind) := by
        rw [List.cons_append, setMembers]
        simp only [bind, Except.bind, Weight.ofName?_name, unseen, numberIn_eq_ok.mpr number,
          Bool.false_eq_true, if_false]
      rw [read, ih others ?_]
      · rw [List.map_cons, List.reverse_cons, List.append_assoc]
        rfl
      · intro later among
        rw [List.mem_cons, not_or]
        exact ⟨fun same => other (same ▸ among), fresh later (List.mem_cons_of_mem weight among)⟩

theorem setMembers_of_fault (refused : Member.fault? front member = some fault)
    (known : ∀ weight : Weight, weight ∈ seen ↔ .ok weight.name ∈ front.map Prod.fst) :
    setMembers weights seen (member :: behind) = .error fault := by
  obtain ⟨name, document⟩ := member
  rw [Member.fault?] at refused
  cases name with
  | error unread =>
      cases refused
      rfl
  | ok name =>
      rw [setMembers]
      simp only [bind, Except.bind] at refused ⊢
      cases found : Weight.ofName? name with
      | none =>
          rw [if_pos found] at refused
          cases refused
          rfl
      | some weight =>
          obtain rfl := Weight.name_of_ofName? found
          rw [if_neg (by rw [found]; exact Option.some_ne_none weight)] at refused
          dsimp only
          by_cases repeated : .ok weight.name ∈ front.map Prod.fst
          · rw [if_pos repeated] at refused
            rw [if_pos (List.contains_iff_mem.mpr ((known weight).mpr repeated))]
            cases refused
            rfl
          · rw [if_neg repeated] at refused
            rw [if_neg (fun among => repeated ((known weight).mp (List.contains_iff_mem.mp among)))]
            cases read : numberIn document with
            | error other =>
                rw [read] at refused
                cases refused
                rfl
            | ok value =>
                rw [read] at refused
                cases refused

theorem gives_of_fault? (accepted : Member.fault? front member = none) :
    (∃ weight value, member.Gives weight value) ∧ member.1 ∉ front.map Prod.fst := by
  obtain ⟨name, document⟩ := member
  rw [Member.fault?] at accepted
  cases name with
  | error unread => cases accepted
  | ok name =>
      dsimp only at accepted
      split_ifs at accepted with unknown repeated
      refine ⟨?_, repeated⟩
      obtain ⟨weight, found⟩ := Option.ne_none_iff_exists'.mp unknown
      obtain rfl := Weight.name_of_ofName? found
      cases read : numberIn document with
      | error other =>
          rw [read] at accepted
          cases accepted
      | ok value => exact ⟨weight, value, rfl, numberIn_eq_ok.mp read⟩

end Members

end Weights

/-! ## Objects -/

section Objects
variable {members front behind others : List Member} {member : Member} {fault : JsonFault}
  {changes : List (Weight × Float)} {weight : Weight} {value : Float} {weights : Weights}

namespace Document

theorem IsNumber.unique {document : Document} {other : Float} (number : document.IsNumber value)
    (again : document.IsNumber other) : value = other := by
  rw [← Weights.numberIn_eq_ok] at number again
  exact Except.ok.inj (number.symm.trans again)

end Document

namespace Member

theorem Gives.unique {other : Weight} {number : Float} (gives : member.Gives weight value)
    (again : member.Gives other number) : (weight, value) = (other, number) := by
  have name := Weight.name_injective (Except.ok.inj (gives.1.symm.trans again.1))
  rw [name, gives.2.unique again.2]

theorem exists_changes (gives : ∀ member ∈ members, ∃ weight value, member.Gives weight value) :
    ∃ changes, Changes members changes :=
  Document.exists_forall₂.mpr fun member among => by
    obtain ⟨weight, value, first⟩ := gives member among
    exact ⟨(weight, value), first⟩

theorem Changes.mem (all : Changes members changes) (among : member ∈ members)
    (gives : member.Gives weight value) : (weight, value) ∈ changes := by
  induction all with
  | nil => cases among
  | cons first _ ih =>
      rcases List.mem_cons.mp among with rfl | among
      · rw [gives.unique first]
        exact List.mem_cons_self
      · exact List.mem_cons_of_mem _ (ih among)

theorem Changes.names_eq (all : Changes members changes) :
    members.map Prod.fst = (changes.map Prod.fst).map fun weight => .ok weight.name := by
  induction all with
  | nil => rfl
  | cons first _ ih => rw [List.map_cons, List.map_cons, List.map_cons, ih, first.1]

theorem ok_name_injective :
    Function.Injective fun weight : Weight => (.ok weight.name : Except JsonFault String) :=
  fun _ _ same => Weight.name_injective (Except.ok.inj same)

theorem Changes.named_iff (all : Changes members changes) :
    weight ∈ changes.map Prod.fst ↔ .ok weight.name ∈ members.map Prod.fst := by
  rw [all.names_eq]
  exact (List.mem_map_of_injective ok_name_injective).symm

theorem Changes.distinct_iff (all : Changes members changes) :
    (changes.map Prod.fst).Nodup ↔ (members.map Prod.fst).Nodup := by
  rw [all.names_eq, List.nodup_map_iff ok_name_injective]

/-- Members are accepted, or one of them is the first to be refused. -/
theorem accepted_or_refused (members : List Member) : Accepted members ∨
    ∃ front member behind fault, members = front ++ member :: behind ∧ Accepted front ∧
      fault? front member = some fault := by
  induction members using List.reverseRecOn with
  | nil => exact .inl ⟨nofun, List.nodup_nil⟩
  | append_singleton front member ih =>
      rcases ih with accepted | ⟨first, other, between, fault, rfl, accepted, refused⟩
      · cases refused : fault? front member with
        | some fault => exact .inr ⟨front, member, [], fault, rfl, accepted, refused⟩
        | none =>
            obtain ⟨gives, fresh⟩ := Weights.gives_of_fault? refused
            refine .inl ⟨?_, ?_⟩
            · intro other among
              rcases List.mem_append.mp among with among | last
              · exact accepted.gives other among
              · rwa [List.mem_singleton.mp last]
            · rw [List.map_append, List.map_singleton, List.nodup_append]
              refine ⟨accepted.distinct, List.nodup_singleton _, ?_⟩
              rintro name among last single rfl
              exact fresh (List.mem_singleton.mp single ▸ among)
      · exact .inr ⟨first, other, between ++ [member], fault, by simp, accepted, refused⟩

end Member

namespace Weights

open Member

/-- Accepted members change the weights that they name. -/
theorem setMembers_of_accepted (accepted : Accepted front) (behind : List Member) :
    ∃ changes, Changes front changes ∧ (changes.map Prod.fst).Nodup ∧
      setMembers {} [] (front ++ behind) =
        setMembers (setAll {} changes) (changes.map Prod.fst).reverse behind := by
  obtain ⟨changes, all⟩ := exists_changes accepted.gives
  have distinct := all.distinct_iff.mpr accepted.distinct
  refine ⟨changes, all, distinct, ?_⟩
  rw [setMembers_append all distinct (fun _ _ => List.not_mem_nil), List.append_nil]

theorem setMembers_eq_error : setMembers {} [] members = .error fault ↔
    ∃ front member behind, members = front ++ member :: behind ∧ Accepted front ∧
      fault? front member = some fault := by
  have refuses {front : List Member} {member : Member} {behind : List Member} {fault : JsonFault}
      (accepted : Accepted front) (refused : fault? front member = some fault) :
      setMembers {} [] (front ++ member :: behind) = .error fault := by
    obtain ⟨changes, all, -, read⟩ := setMembers_of_accepted accepted (member :: behind)
    rw [read]
    refine setMembers_of_fault refused fun weight => ?_
    rw [List.mem_reverse, all.named_iff]
  constructor
  · intro failed
    rcases accepted_or_refused members with accepted | ⟨front, member, behind, other, rfl, accepted,
      refused⟩
    · obtain ⟨changes, -, -, read⟩ := setMembers_of_accepted accepted []
      rw [List.append_nil, failed, setMembers] at read
      cases read
    · have again := @refuses front member behind other accepted refused
      obtain rfl := Except.error.inj (failed.symm.trans again)
      exact ⟨front, member, behind, rfl, accepted, refused⟩
  · rintro ⟨front, member, behind, rfl, accepted, refused⟩
    exact refuses accepted refused

/-- The weights are those that the members name, and the others keep their defaults. -/
def NamedBy (members : List Member) (weights : Weights) : Prop :=
  (∀ member ∈ members, ∀ weight value, member.Gives weight value → weights.get weight = value) ∧
  ∀ weight : Weight, .ok weight.name ∉ members.map Prod.fst →
    weights.get weight = ({} : Weights).get weight

theorem namedBy_setAll (all : Changes members changes) (distinct : (changes.map Prod.fst).Nodup) :
    NamedBy members (setAll {} changes) := by
  constructor
  · intro member among weight value gives
    exact get_setAll_of_mem distinct (all.mem among gives)
  · intro weight absent
    exact get_setAll_of_not_mem (all.named_iff.not.mpr absent)

theorem exists_namedBy (accepted : Accepted members) : ∃ weights, NamedBy members weights := by
  obtain ⟨changes, all⟩ := exists_changes accepted.gives
  exact ⟨setAll {} changes, namedBy_setAll all (all.distinct_iff.mpr accepted.distinct)⟩

theorem NamedBy.unique {other : Weights} (accepted : Accepted members)
    (named : NamedBy members weights) (again : NamedBy members other) : weights = other := by
  refine ext_get fun weight => ?_
  by_cases there : .ok weight.name ∈ members.map Prod.fst
  · obtain ⟨member, among, name⟩ := List.mem_map.mp there
    obtain ⟨same, value, gives⟩ := accepted.gives member among
    obtain rfl := ok_name_injective (gives.1.symm.trans name)
    rw [named.1 member among _ value gives, again.1 member among _ value gives]
  · rw [named.2 weight there, again.2 weight there]

theorem setMembers_eq_ok :
    setMembers {} [] members = .ok weights ↔ Accepted members ∧ NamedBy members weights := by
  have sets (accepted : Accepted members) :
      ∃ found, setMembers {} [] members = .ok found ∧ NamedBy members found := by
    obtain ⟨changes, all, distinct, read⟩ := setMembers_of_accepted accepted []
    rw [List.append_nil] at read
    exact ⟨setAll {} changes, read, namedBy_setAll all distinct⟩
  constructor
  · intro succeeded
    rcases accepted_or_refused members with accepted | refused
    · obtain ⟨found, read, named⟩ := sets accepted
      obtain rfl := Except.ok.inj (succeeded.symm.trans read)
      exact ⟨accepted, named⟩
    · obtain ⟨front, member, behind, fault, refused⟩ := refused
      cases succeeded.symm.trans (setMembers_eq_error.mpr ⟨front, member, behind, refused⟩)
  · rintro ⟨accepted, named⟩
    obtain ⟨found, read, again⟩ := sets accepted
    rw [read, again.unique accepted named]

theorem NamedBy.perm (same : members.Perm others) (named : NamedBy members weights) :
    NamedBy others weights := by
  refine ⟨fun member among => named.1 member (same.mem_iff.mpr among), fun weight absent => ?_⟩
  exact named.2 weight fun there => absent ((same.map Prod.fst).mem_iff.mp there)

end Weights

theorem Member.Accepted.perm (same : members.Perm others) (accepted : Member.Accepted members) :
    Member.Accepted others :=
  ⟨fun member among => accepted.gives member (same.mem_iff.mpr among),
    (same.map Prod.fst).nodup_iff.mp accepted.distinct⟩

end Objects

/-! ## Arrays -/

namespace Weights

section Arrays
variable {weights result : Weights} {order : List Weight} {items : List Document}
  {values : List Float} {weight : Weight} {place : Nat}

/-- As many items as there are weights, all of them numbers, change the first weights. -/
theorem setItems_eq_ok : setItems weights order items = .ok result ↔
    items.length ≤ order.length ∧ ∃ values, List.Forall₂ Document.IsNumber items values ∧
      weights.setAll (order.zip values) = result := by
  induction items generalizing weights order with
  | nil =>
      rw [setItems]
      constructor
      · rintro ⟨rfl⟩
        exact ⟨Nat.zero_le _, [], .nil, by rw [List.zip_nil_right]; rfl⟩
      · rintro ⟨-, values, numbers, rfl⟩
        cases numbers
        rw [List.zip_nil_right]
        rfl
  | cons item rest ih =>
      cases order with
      | nil => exact iff_of_false nofun fun most => absurd most.1 (by simp)
      | cons weight others =>
          rw [setItems]
          cases read : numberIn item with
          | error fault =>
              refine iff_of_false nofun ?_
              rintro ⟨-, values, numbers, -⟩
              cases numbers with
              | cons number _ => cases read.symm.trans (numberIn_eq_ok.mpr number)
          | ok value =>
              have number := numberIn_eq_ok.mp read
              change setItems (weights.set weight value) others rest = _ ↔ _
              rw [ih, List.length_cons, List.length_cons, Nat.add_le_add_iff_right]
              refine and_congr_right fun _ => ⟨?_, ?_⟩
              · rintro ⟨values, numbers, same⟩
                exact ⟨value :: values, .cons number numbers, same⟩
              · rintro ⟨values, numbers, same⟩
                cases numbers with
                | @cons _ other _ values first numbers =>
                    obtain rfl := number.unique first
                    exact ⟨values, numbers, same⟩

theorem get_setAll_zip (distinct : order.Nodup) (there : order[place]? = some weight) :
    (weights.setAll (order.zip values)).get weight =
      (values[place]?).getD (weights.get weight) := by
  induction order generalizing weights values place with
  | nil => cases there
  | cons first others ih =>
      obtain ⟨fresh, later⟩ := List.nodup_cons.mp distinct
      cases values with
      | nil => rw [List.zip_nil_right]; rfl
      | cons value values =>
          rw [List.zip_cons_cons, setAll, List.foldl_cons, ← setAll]
          cases place with
          | zero =>
              obtain rfl : first = weight := Option.some.inj there
              have absent : first ∉ (others.zip values).map Prod.fst := by
                intro among
                obtain ⟨change, inside, rfl⟩ := List.mem_map.mp among
                exact fresh (List.of_mem_zip inside).1
              rw [get_setAll_of_not_mem absent, get_set, if_pos rfl]
              rfl
          | succ place =>
              have other : weight ≠ first := by
                rintro rfl
                exact fresh (List.mem_of_getElem? there)
              rw [ih later there, get_set, if_neg other]
              rfl

end Arrays

end Weights

/-! ## Numbers -/

/-- A number is read if it is well inside the range of the doubles, and it is refused if it is well
outside.  The double that it is read as is near it, unless it is too small. -/
def Document.ReadInRange (document : Document) : Prop :=
  ∀ numeral, document = .number numeral →
    (|numeral.toRat| ≤ 179769313486231 * 10 ^ 294 → ∃ value, document.IsNumber value) ∧
    (179769313486232 * 10 ^ 294 ≤ |numeral.toRat| → ∀ value, ¬ document.IsNumber value) ∧
    (numeral.toRat = 0 ∨ 10 ^ (-288 : Int) ≤ |numeral.toRat| →
      ∀ value, document.IsNumber value → numeral.IsNear value)

theorem Document.NumbersProper.readInRange {document : Document}
    (proper : document.NumbersProper) : document.ReadInRange := by
  rintro numeral rfl
  refine ⟨fun inside => ?_, fun beyond value read => ?_, fun coarse value read => ?_⟩
  · obtain ⟨number, value⟩ := Option.isSome_iff_exists.mp (Numeral.isSome_value? proper inside)
    exact ⟨number.toFloat, numeral, number, rfl, value, rfl⟩
  · obtain ⟨same, number, found, value, -⟩ := read
    cases found
    cases value.symm.trans (Numeral.value?_eq_none proper beyond)
  · obtain ⟨same, number, found, value, rfl⟩ := read
    cases found
    exact Numeral.isNear_of_value? proper value coarse

namespace Weights

/-! ## Files -/

section Files
variable {text : String} {members : List Member} {items : List Document} {weights : Weights}
  {fault : JsonFault} {weight : Weight} {place : Nat}

theorem read_object (whole : Document.read text = (.object members none, false)) :
    read text = setMembers {} [] members := by
  rw [read, Document.decode, whole]
  change (ofDocument (.object members none) >>= fun value => .ok value) = _
  rw [ofDocument]
  cases setMembers {} [] members <;> rfl

theorem read_array (whole : Document.read text = (.array items none, false)) :
    read text = setItems {} Weight.all items := by
  rw [read, Document.decode, whole]
  change (ofDocument (.array items none) >>= fun value => .ok value) = _
  rw [ofDocument]
  cases setItems {} Weight.all items <;> rfl

theorem get_of_setItems (set : setItems {} Weight.all items = .ok weights)
    (there : Weight.all[place]? = some weight) :
    (∀ item, items[place]? = some item → item.IsNumber (weights.get weight)) ∧
      (items.length ≤ place → weights.get weight = ({} : Weights).get weight) := by
  obtain ⟨-, values, numbers, rfl⟩ := setItems_eq_ok.mp set
  rw [get_setAll_zip (by decide) there]
  constructor
  · intro item found
    obtain ⟨inside, rfl⟩ := List.getElem?_eq_some_iff.mp found
    have inner : place < values.length := numbers.length_eq ▸ inside
    rw [List.getElem?_eq_getElem inner]
    exact numbers.get inside inner
  · intro behind
    rw [List.getElem?_eq_none (numbers.length_eq ▸ behind)]
    rfl

open Member

/-- A weights file changes exactly the weights that it names.  An object is read if its members name
different weights and give numbers for them, in whatever order; its weights are those numbers, and
the others keep their defaults.  Otherwise it is refused for the first member that is at fault.
An array gives the first weights in their order. -/
theorem weights_files_override :
    (∀ (text : String) (members : List Member),
      Document.read text = (.object members none, false) →
      ((∃ weights, read text = .ok weights) ↔ Accepted members) ∧
      (∀ weights, read text = .ok weights → NamedBy members weights) ∧
      (∀ (other : String) (others : List Member),
        Document.read other = (.object others none, false) → members.Perm others →
        ∀ weights, read text = .ok weights → read other = .ok weights) ∧
      (∀ fault, read text = .error fault ↔ ∃ front member behind,
        members = front ++ member :: behind ∧ Accepted front ∧
        fault? front member = some fault) ∧
      ∀ member ∈ members, member.2.ReadInRange) ∧
    ∀ (text : String) (items : List Document),
      Document.read text = (.array items none, false) →
      ((∃ weights, read text = .ok weights) ↔
        items.length ≤ 9 ∧ ∀ item ∈ items, ∃ value, item.IsNumber value) ∧
      (∀ weights, read text = .ok weights →
        ∀ place weight, Weight.all[place]? = some weight →
          (∀ item, items[place]? = some item → item.IsNumber (weights.get weight)) ∧
          (items.length ≤ place → weights.get weight = ({} : Weights).get weight)) ∧
      ∀ item ∈ items, item.ReadInRange := by
  constructor
  · intro text members whole
    have proper := Document.numbersProper_read text
    rw [whole, Document.NumbersProper, Document.membersProper_iff] at proper
    rw [read_object whole]
    simp only [setMembers_eq_ok]
    refine ⟨?_, fun weights succeeds => succeeds.2, ?_, fun fault => setMembers_eq_error,
      fun member among => (proper member among).readInRange⟩
    · refine ⟨fun ⟨_, accepted, _⟩ => accepted, fun accepted => ?_⟩
      obtain ⟨weights, named⟩ := exists_namedBy accepted
      exact ⟨weights, accepted, named⟩
    · intro other others again same weights succeeds
      rw [read_object again, setMembers_eq_ok]
      exact ⟨succeeds.1.perm same, succeeds.2.perm same⟩
  · intro text items whole
    have proper := Document.numbersProper_read text
    rw [whole, Document.NumbersProper, Document.itemsProper_iff] at proper
    rw [read_array whole]
    refine ⟨?_, fun weights set place weight there => get_of_setItems set there,
      fun item among => (proper item among).readInRange⟩
    simp only [setItems_eq_ok]
    constructor
    · rintro ⟨_, most, values, numbers, -⟩
      exact ⟨most, Document.exists_forall₂.mp ⟨values, numbers⟩⟩
    · rintro ⟨most, all⟩
      obtain ⟨values, numbers⟩ := Document.exists_forall₂.mpr all
      exact ⟨_, most, values, numbers, rfl⟩

end Files

def twoWeights : List (String × Json) :=
  [("lines", .number (.whole (-1))), ("joins", .number (.whole 3))]

theorem isNumber_ofInt {value : Int} (least : -(Numeral.signedLimit : Int) ≤ value)
    (greatest : value < Numeral.wordLimit) :
    (Document.number (.ofInt value)).IsNumber (Float.ofInt value) :=
  ⟨.ofInt value, .whole value, rfl, Numeral.value?_ofInt least greatest, rfl⟩

/-- The two weights in either order, a name behind them that is no weight's, and an array. -/
theorem weights_of_members :
    (∃ weights, read (String.ofList (Json.object twoWeights).compact) = .ok weights ∧
      read (String.ofList (Json.object twoWeights.reverse).compact) = .ok weights ∧
      weights.joins = Float.ofInt 3 ∧ weights.lines = Float.ofInt (-1) ∧ weights.tables = 1) ∧
    read (String.ofList (Json.object (twoWeights ++ [("unions", .null)])).compact) =
      .error .unsuitable ∧
    ∃ weights, read (String.ofList (Json.array [.number (.whole 4)]).compact) = .ok weights ∧
      weights.joins = Float.ofInt 4 ∧ weights.subqueries = 2 := by
  obtain ⟨objects, arrays⟩ := weights_files_override
  have lines : Member.Gives (.ok "lines", .number (.ofInt (-1))) .lines (Float.ofInt (-1)) :=
    ⟨rfl, isNumber_ofInt (by decide) (by decide)⟩
  have joins : Member.Gives (.ok "joins", .number (.ofInt 3)) (.feature .joins) (Float.ofInt 3) :=
    ⟨rfl, isNumber_ofInt (by decide) (by decide)⟩
  have accepted : Member.Accepted (Json.memberDocuments twoWeights) := by
    refine ⟨?_, by decide⟩
    intro member among
    rcases List.mem_cons.mp among with rfl | among
    · exact ⟨_, _, lines⟩
    · obtain rfl := List.mem_singleton.mp among
      exact ⟨_, _, joins⟩
  refine ⟨?_, ?_, ?_⟩
  · obtain ⟨accepts, named, order, -⟩ := objects _ _ (Document.read_compact (.object twoWeights))
    obtain ⟨weights, succeeds⟩ := accepts.mpr accepted
    have numbers := named weights succeeds
    refine ⟨weights, succeeds, order _ _ (Document.read_compact (.object twoWeights.reverse))
      (.swap _ _ _) weights succeeds, ?_, ?_, ?_⟩
    · exact numbers.1 _ (.tail _ (.head _)) _ _ joins
    · exact numbers.1 _ (.head _) _ _ lines
    · exact numbers.2 (.feature .tables) (by decide)
  · have unknown := objects _ _ (Document.read_compact
      (.object (twoWeights ++ [("unions", .null)])))
    exact (unknown.2.2.2.1 _).mpr ⟨Json.memberDocuments twoWeights, (.ok "unions", .null), [], rfl,
      accepted, rfl⟩
  · obtain ⟨accepts, first, -⟩ := arrays _ _ (Document.read_compact (.array [.number (.whole 4)]))
    have four := @isNumber_ofInt 4 (by decide) (by decide)
    obtain ⟨weights, succeeds⟩ := accepts.mpr ⟨by decide, List.forall_mem_singleton.mpr ⟨_, four⟩⟩
    have joinsFour := (first weights succeeds 0 (.feature .joins) rfl).1 _ rfl
    refine ⟨weights, succeeds, joinsFour.unique four, ?_⟩
    exact (first weights succeeds 1 (.feature .subqueries) rfl).2 (by decide)

/-! ## A number that is refused -/

def greatNumeral : Numeral :=
  ⟨false, ['1'], "797693134862315707".toList, some 308⟩

theorem value?_greatNumeral : greatNumeral.value? = none := by
  have infinite : (Float.ofNat 1797693134862315707 * Numeral.tenPower 290).isInf = true := by
    decide +kernel
  have parts : greatNumeral.scaled = (1797693134862315707, -18) := by
    decide +kernel
  rw [Numeral.value?]
  simp only [parts]
  rw [if_neg (by decide), Numeral.scale?, if_neg (by decide), if_pos (by decide)]
  change Option.map _ (if (Float.ofNat 1797693134862315707 * Numeral.tenPower 290).isInf then none
    else some _) = none
  rw [infinite]
  rfl

theorem toRat_greatNumeral : greatNumeral.toRat = 1797693134862315707 * 10 ^ (290 : Int) := by
  have value : digitsValue (greatNumeral.whole ++ greatNumeral.fraction) = 1797693134862315707 := by
    decide +kernel
  have place : greatNumeral.exponent.getD 0 - greatNumeral.fraction.length = 290 := by
    decide +kernel
  have sign : greatNumeral.negative = false := rfl
  rw [Numeral.toRat, value, place, sign]
  norm_num

theorem isDouble_greatest : IsDouble ((2 ^ 53 - 1 : Nat) * 2 ^ (971 : Int)) :=
  ⟨2 ^ 53 - 1, 971, ⟨by decide, by decide, fun _ => by decide⟩, by decide,
    abs_of_nonneg (by positivity)⟩

theorem greatNumeral_le_greatest :
    (1797693134862315707 * 10 ^ (290 : Int) : ℚ) ≤ (2 ^ 53 - 1 : Nat) * 2 ^ (971 : Int) := by
  have below : 1797693134862315707 * (10 ^ 145 * 10 ^ 145) ≤ (2 ^ 53 - 1) * 2 ^ 971 := by
    decide +kernel
  have belowCast : (1797693134862315707 * (10 ^ 145 * 10 ^ 145) : ℚ) ≤
      (2 ^ 53 - 1 : Nat) * 2 ^ 971 := by
    exact_mod_cast below
  rwa [show (290 : Int) = (145 + 145 : Nat) from rfl, zpow_natCast, pow_add, zpow_ofNat]

/-- The weight is named, and its number is not beyond the doubles, and still it is refused. -/
theorem great_weight_refused :
    Document.read "\x7b\x22joins\x22: 1.797693134862315707e308\x7d" =
      (.object [(.ok "joins", .number greatNumeral)] none, false) ∧
    0 ≤ greatNumeral.toRat ∧ (∃ greatest, IsDouble greatest ∧ greatNumeral.toRat ≤ greatest) ∧
    read "\x7b\x22joins\x22: 1.797693134862315707e308\x7d" = .error .malformed := by
  have proper : greatNumeral.Proper := by
    refine ⟨List.cons_ne_nil _ _, List.all_eq_true.mp rfl, List.all_eq_true.mp rfl, ?_⟩
    intro zero
    exact absurd zero (by decide)
  have spelled : "\x7b\x22joins\x22: 1.797693134862315707e308\x7d".toList =
      '\x7b' :: (Json.quoteText "joins" ++
        ':' :: ([' '] ++ (greatNumeral.text false ++ ['\x7d']))) := by
    decide +kernel
  have number := (Document.Reads.numeral proper
    (Document.endsNumber_closing (.inr rfl) []) false).spaced Document.isSpace_single
  have whole : Document.read "\x7b\x22joins\x22: 1.797693134862315707e308\x7d" =
      (.object [(.ok "joins", .number greatNumeral)] none, false) := by
    refine Document.read_of_reads ?_
    rw [spelled]
    exact .object (Document.skipSpace_cons rfl)
      (.last (.of_quoteText Document.isSpace_nothing number) (Document.skipSpace_cons rfl))
  refine ⟨whole, ?_, ?_, ?_⟩
  · rw [toRat_greatNumeral]
    positivity
  · rw [toRat_greatNumeral]
    exact ⟨_, isDouble_greatest, greatNumeral_le_greatest⟩
  · rw [read_object whole, setMembers_eq_error]
    refine ⟨[], _, [], rfl, ⟨nofun, List.nodup_nil⟩, ?_⟩
    have named : Weight.ofName? "joins" ≠ none := by decide
    simp only [Member.fault?, if_neg named, numberIn, Document.numberOf, value?_greatNumeral]
    rfl

end Weights

end SqlMetrics
