import Mathlib.Data.List.Nodup
import Mathlib.Data.List.Perm.Basic
import SqlMetrics.Features.Json
import SqlMetrics.Proofs.Json.Compact
import SqlMetrics.Proofs.Json.Magnitudes
import SqlMetrics.Proofs.Json.ReadNumbers

/-! # Texts of feature counts

The members of an object describe counts if those that name a count are, but for their order, one
for each of the seven, and the others can be skipped (`Describes`).  An object is read as counts if
and only if its members describe them (`read_eq_ok`).  So counts that fit are read back from their
own text, and neither the order of the members nor what others say makes a difference
(`features_survive_texts`). -/
set_option autoImplicit false
namespace SqlMetrics

/-! ## Integers -/

theorem Numeral.toRat_of_whole {numeral : Numeral} {value : Int} (proper : numeral.Proper)
    (found : numeral.value? = some (.whole value)) : numeral.toRat = value := by
  rw [value?] at found
  dsimp only at found
  by_cases plain : (numeral.fraction.isEmpty && numeral.exponent.isNone &&
      decide ((numeral.whole.foldl addWholeDigit (0, 0)).2 = 0)) = true
  · rw [if_pos plain] at found
    simp only [Bool.and_eq_true, List.isEmpty_iff, Option.isNone_iff_eq_none,
      decide_eq_true_eq] at plain
    obtain ⟨⟨noFraction, noExponent⟩, fits⟩ := plain
    have magnitude := foldl_addWholeDigit_exact proper.whole fits
    have written : numeral.toRat =
        (if numeral.negative then -1 else 1) * (digitsValue numeral.whole : ℚ) := by
      rw [toRat, noFraction, noExponent]
      simp
    rw [magnitude] at found
    rw [written]
    split_ifs at found with positive small
    · cases found
      rw [Bool.not_eq_true'] at positive
      rw [positive]
      simp
    · cases found
    · cases found
      rw [Bool.not_eq_true', Bool.not_eq_false] at positive
      rw [positive]
      simp
  · rw [if_neg plain] at found
    simp at found

namespace Feature

/-- A count that its field can hold: 64 bits, with a sign for subqueries. -/
def Holds (feature : Feature) (count : Int) : Prop :=
  if feature = .subqueries then -2 ^ 63 ≤ count ∧ count < 2 ^ 63 else 0 ≤ count ∧ count < 2 ^ 64

theorem names_distinct : (all.map name).Nodup := by decide

theorem ofName?_name (feature : Feature) : ofName? feature.name = some feature :=
  find?_name names_distinct feature.mem_all

theorem name_of_ofName? {text : String} {feature : Feature} (found : ofName? text = some feature) :
    feature.name = text := by
  rw [ofName?] at found
  simpa using List.find?_some found

theorem name_injective : Function.Injective name :=
  fun first second => List.inj_on_of_nodup_map names_distinct first.mem_all second.mem_all

end Feature

/-- A document is an integer that the field of a count can hold. -/
def Document.IsCount (document : Document) (feature : Feature) (count : Int) : Prop :=
  ∃ numeral, document = .number numeral ∧ numeral.value? = some (.whole count) ∧
    feature.Holds count

namespace Features

def counts (features : Features) : List (Feature × Int) :=
  Feature.all.map fun feature => (feature, features.get feature)

def Fit (features : Features) : Prop :=
  ∀ feature : Feature, feature.Holds (features.get feature)

def namesCount (member : Member) : Bool :=
  match member.1 with
  | .ok name => (Feature.ofName? name).isSome
  | .error _ => false

def Gives (member : Member) (count : Feature × Int) : Prop :=
  member.1 = .ok count.1.name ∧ member.2.IsCount count.1 count.2

/-- A member whose name can be read and whose value is complete. -/
def CanBeSkipped (member : Member) : Prop :=
  ∃ name, member.1 = .ok name ∧ member.2.skipFault? = none

/-- The members that name a count give, but for their order, the seven counts, and the others can be
skipped. -/
structure Describes (members : List Member) (features : Features) :
    Prop where
  given : ∃ given, List.Forall₂ Gives (members.filter namesCount) given ∧
    given.Perm features.counts
  others : ∀ member ∈ members, namesCount member = false → CanBeSkipped member

/-! ## Counts one by one -/

theorem get_set (features : Features) {feature : Feature} {count : Int}
    (holds : feature.Holds count) (other : Feature) :
    (features.set feature count).get other =
      if other = feature then count else features.get other := by
  have castBack : feature ≠ .subqueries → (count.toNat : Int) = count := fun unsigned => by
    rw [Feature.Holds, if_neg unsigned] at holds
    exact Int.toNat_of_nonneg holds.1
  split_ifs with same
  · subst same
    cases other with
    | subqueries => rfl
    | _ => exact castBack nofun
  · cases feature <;> cases other <;> first | rfl | exact absurd rfl same

theorem ext_get {first second : Features}
    (same : ∀ feature, first.get feature = second.get feature) : first = second := by
  cases first
  cases second
  congr 1
  · exact Int.ofNat_inj.mp (same .joins)
  · exact same .subqueries
  · exact Int.ofNat_inj.mp (same .whereConditions)
  · exact Int.ofNat_inj.mp (same .functions)
  · exact Int.ofNat_inj.mp (same .tables)
  · exact Int.ofNat_inj.mp (same .groupBy)
  · exact Int.ofNat_inj.mp (same .orderBy)

theorem inRange_iff {feature : Feature} {count : Int} :
    inRange feature count = true ↔ feature.Holds count := by
  have signed : (Numeral.signedLimit : Int) = 2 ^ 63 := rfl
  have word : (Numeral.wordLimit : Int) = 2 ^ 64 := rfl
  rw [inRange, Feature.Holds, signed, word]
  split_ifs <;> simp

theorem countIn_eq_ok {feature : Feature} {document : Document} {count : Int} :
    countIn feature document = .ok count ↔ document.IsCount feature count := by
  rw [Document.IsCount]
  cases document with
  | number numeral =>
      cases value : numeral.value? with
      | none => simp [countIn, Document.numberOf, bind, Except.bind, value]
      | some number =>
          cases number with
          | real other => simp [countIn, Document.numberOf, bind, Except.bind, value]
          | whole found =>
              have read : countIn feature (.number numeral) =
                  if inRange feature found = true then .ok found else .error .unsuitable := by
                rw [countIn, Document.numberOf, value]
                rfl
              rw [read]
              constructor
              · intro same
                split_ifs at same with fits
                cases same
                exact ⟨numeral, rfl, value, inRange_iff.mp fits⟩
              · rintro ⟨other, same, number, holds⟩
                cases same
                cases value.symm.trans number
                rw [if_pos (inRange_iff.mpr holds)]
  | null | bool | text | array | object | broken => simp [countIn]

def setAll (features : Features) (changes : List (Feature × Int)) : Features :=
  changes.foldl (fun features change => features.set change.1 change.2) features

section Changes
variable {features : Features} {changes : List (Feature × Int)} {feature : Feature} {count : Int}

theorem get_setAll_of_mem (holds : ∀ change ∈ changes, change.1.Holds change.2)
    (distinct : (changes.map Prod.fst).Nodup) (among : (feature, count) ∈ changes) :
    (features.setAll changes).get feature = count :=
  get_foldl_set_of_mem get set
    (fun change among features other => get_set features (holds change among) other) distinct among

end Changes

/-! ## Members -/

section Members
variable {features : Features} {seen : List Feature} {member : Member}
  {members : List Member} {outcome : Features × List Feature}

theorem namesCount_of_eq {feature : Feature} (named : member.1 = .ok feature.name) :
    namesCount member = true := by
  rw [namesCount, named]
  dsimp only
  rw [Feature.ofName?_name, Option.isSome_some]

theorem setMembers_other {name : String} {document : Document}
    (unknown : Feature.ofName? name = none) :
    setMembers features seen ((.ok name, document) :: members) =
      match document.skipFault? with
      | some fault => .error fault
      | none => setMembers features seen members := by
  cases skips : document.skipFault? with
  | none => simp [setMembers, bind, Except.bind, unknown, skips]
  | some fault => simp [setMembers, bind, Except.bind, unknown, skips]

theorem setMembers_count {feature : Feature} {document : Document} :
    setMembers features seen ((.ok feature.name, document) :: members) =
      if feature ∈ seen then .error .unsuitable
      else (countIn feature document).bind fun count =>
        setMembers (features.set feature count) (feature :: seen) members := by
  rw [setMembers]
  simp only [bind, Except.bind, Feature.ofName?_name, List.contains_iff_mem]

/-- A member is read if it can be skipped, or if it gives a count that no member before it named. -/
theorem setMembers_cons : setMembers features seen (member :: members) = .ok outcome ↔
    (namesCount member = false ∧ CanBeSkipped member ∧
      setMembers features seen members = .ok outcome) ∨
    ∃ change, Gives member change ∧ change.1 ∉ seen ∧
      setMembers (features.set change.1 change.2) (change.1 :: seen) members = .ok outcome := by
  obtain ⟨name, document⟩ := member
  cases name with
  | error fault =>
      refine iff_of_false nofun ?_
      rintro (⟨-, ⟨name, read, -⟩, -⟩ | ⟨change, gives, -⟩)
      · cases read
      · cases gives.1
  | ok name =>
      cases found : Feature.ofName? name with
      | none =>
          have unnamed : namesCount (.ok name, document) = false := by
            rw [namesCount]
            dsimp only
            rw [found, Option.isSome_none]
          rw [setMembers_other found]
          constructor
          · intro read
            cases skips : document.skipFault? with
            | some fault =>
                rw [skips] at read
                cases read
            | none =>
                rw [skips] at read
                exact .inl ⟨unnamed, ⟨name, rfl, skips⟩, read⟩
          · rintro (⟨-, ⟨_, -, skips⟩, read⟩ | ⟨change, gives, -⟩)
            · rwa [show document.skipFault? = none from skips]
            · rw [namesCount_of_eq gives.1] at unnamed
              cases unnamed
      | some feature =>
          obtain rfl := Feature.name_of_ofName? found
          rw [setMembers_count]
          constructor
          · intro read
            split_ifs at read with repeated
            cases given : countIn feature document with
            | error fault =>
                rw [given] at read
                cases read
            | ok count =>
                rw [given] at read
                exact .inr ⟨(feature, count), ⟨rfl, countIn_eq_ok.mp given⟩, repeated, read⟩
          · rintro (⟨unnamed, -⟩ | ⟨⟨other, count⟩, ⟨same, given⟩, fresh, read⟩)
            · rw [namesCount] at unnamed
              simp [found] at unnamed
            · obtain rfl := Feature.name_injective (Except.ok.inj same)
              rw [if_neg fresh, countIn_eq_ok.mpr given]
              exact read

/-- The members are read if those that name a count give different ones, and the others can be
skipped. -/
theorem setMembers_eq_ok : setMembers features seen members = .ok outcome ↔
    (∀ member ∈ members, namesCount member = false → CanBeSkipped member) ∧
    ∃ changes, List.Forall₂ Gives (members.filter namesCount) changes ∧
      (changes.map Prod.fst).Nodup ∧ (∀ feature ∈ changes.map Prod.fst, feature ∉ seen) ∧
      outcome = (features.setAll changes, (changes.map Prod.fst).reverse ++ seen) := by
  induction members generalizing features seen with
  | nil =>
      constructor
      · intro read
        exact ⟨nofun, [], .nil, List.nodup_nil, nofun, (Except.ok.inj read).symm⟩
      · rintro ⟨-, changes, gives, -, -, rfl⟩
        cases gives
        rfl
  | cons member members ih =>
      rw [setMembers_cons, List.forall_mem_cons]
      constructor
      · rintro (⟨unnamed, skips, read⟩ | ⟨change, first, fresh, read⟩)
        · obtain ⟨others, changes, gives, rest⟩ := ih.mp read
          refine ⟨⟨fun _ => skips, others⟩, changes, ?_, rest⟩
          rwa [List.filter_cons_of_neg (Bool.eq_false_iff.mp unnamed)]
        · obtain ⟨others, changes, gives, distinct, unseen, same⟩ := ih.mp read
          have named := namesCount_of_eq first.1
          refine ⟨⟨fun unnamed => ?_, others⟩, change :: changes, ?_, ?_, ?_, ?_⟩
          · rw [named] at unnamed
            cases unnamed
          · rw [List.filter_cons_of_pos named]
            exact .cons first gives
          · exact List.nodup_cons.mpr
              ⟨fun again => unseen change.1 again List.mem_cons_self, distinct⟩
          · rw [List.map_cons, List.forall_mem_cons]
            exact ⟨fresh, fun feature among => fun there =>
              unseen feature among (List.mem_cons_of_mem _ there)⟩
          · rw [same, List.map_cons, List.reverse_cons, List.append_assoc]
            rfl
      · rintro ⟨⟨skips, others⟩, changes, gives, distinct, unseen, same⟩
        cases named : namesCount member with
        | false =>
            rw [List.filter_cons_of_neg (Bool.eq_false_iff.mp named)] at gives
            exact .inl ⟨rfl, skips named, ih.mpr ⟨others, changes, gives, distinct, unseen, same⟩⟩
        | true =>
            rw [List.filter_cons_of_pos named] at gives
            cases gives with
            | @cons _ change _ changes first gives =>
                obtain ⟨fresh, later⟩ := List.nodup_cons.mp distinct
                obtain ⟨here, behind⟩ := List.forall_mem_cons.mp unseen
                refine .inr ⟨change, first, here, ih.mpr ⟨others, changes, gives, later, ?_, ?_⟩⟩
                · intro feature among there
                  rcases List.mem_cons.mp there with rfl | there
                  · exact fresh among
                  · exact behind feature among there
                · rw [same, List.map_cons, List.reverse_cons, List.append_assoc]
                  rfl

end Members

/-! ## Objects -/

section Objects
variable {features other : Features} {members others : List Member}
  {ending : Option Breakage} {more : Bool} {text : String}

theorem read_object (whole : Document.read text = (.object members ending, more)) :
    read text = .ok features ↔ ending = none ∧ more = false ∧
      ∃ seen, setMembers {} [] members = .ok (features, seen) ∧ ∀ feature, feature ∈ seen := by
  have decoded : read text = (setMembers {} [] members).bind fun outcome =>
      (Document.closed ending).bind fun _ =>
        if Feature.all.all outcome.2.contains = true then
          if more = true then .error .malformed else .ok outcome.1
        else .error .unsuitable := by
    rw [read, Document.decode, whole]
    dsimp only
    rw [ofDocument]
    cases setMembers {} [] members with
    | error fault => rfl
    | ok outcome =>
        cases Document.closed ending with
        | error fault => rfl
        | ok _ =>
            change (if Feature.all.all outcome.2.contains = true then Except.ok outcome.1
              else Except.error JsonFault.unsuitable).bind _ =
              if Feature.all.all outcome.2.contains = true then _ else _
            cases more <;> split_ifs <;> rfl
  have complete (seen : List Feature) :
      Feature.all.all seen.contains = true ↔ ∀ feature, feature ∈ seen := by
    rw [List.all_eq_true]
    exact ⟨fun all feature => List.contains_iff_mem.mp (all feature feature.mem_all),
      fun all feature _ => List.contains_iff_mem.mpr (all feature)⟩
  rw [decoded]
  constructor
  · intro succeeds
    cases set : setMembers {} [] members with
    | error fault => rw [set] at succeeds; cases succeeds
    | ok outcome =>
        rw [set] at succeeds
        cases ending with
        | some breakage => cases succeeds
        | none =>
            change (if Feature.all.all outcome.2.contains = true then _ else _) = _ at succeeds
            split_ifs at succeeds with all rest
            · cases succeeds
              exact ⟨rfl, Bool.eq_false_iff.mpr rest, outcome.2, rfl, (complete _).mp all⟩
  · rintro ⟨rfl, rfl, seen, set, all⟩
    rw [set]
    exact if_pos ((complete seen).mpr all)

theorem mem_counts {feature : Feature} {count : Int} :
    (feature, count) ∈ features.counts ↔ features.get feature = count := by
  rw [counts, List.mem_map]
  constructor
  · rintro ⟨other, -, same⟩
    obtain ⟨rfl, rfl⟩ := Prod.mk.inj same
    rfl
  · rintro rfl
    exact ⟨feature, feature.mem_all, rfl⟩

theorem setAll_eq_iff {changes : List (Feature × Int)}
    (holds : ∀ change ∈ changes, change.1.Holds change.2) :
    ((changes.map Prod.fst).Nodup ∧ (∀ feature, feature ∈ changes.map Prod.fst) ∧
      ({} : Features).setAll changes = features) ↔ changes.Perm features.counts := by
  constructor
  · rintro ⟨distinct, complete, rfl⟩
    have order : (changes.map Prod.fst).Perm Feature.all :=
      (List.perm_ext_iff_of_nodup distinct (by decide)).mpr fun feature =>
        iff_of_true (complete feature) feature.mem_all
    have own : (changes.map Prod.fst).map (fun feature =>
        (feature, (({} : Features).setAll changes).get feature)) = changes := by
      rw [List.map_map]
      refine (List.map_congr_left fun change among => ?_).trans (List.map_id changes)
      exact Prod.ext rfl (get_setAll_of_mem holds distinct among)
    have sorted := order.map fun feature =>
      (feature, (({} : Features).setAll changes).get feature)
    rwa [own] at sorted
  · intro order
    have names : (changes.map Prod.fst).Perm Feature.all := order.map Prod.fst
    have distinct : (changes.map Prod.fst).Nodup := names.nodup_iff.mpr (by decide)
    refine ⟨distinct, fun feature => names.mem_iff.mpr feature.mem_all, ext_get fun feature => ?_⟩
    exact get_setAll_of_mem holds distinct (order.mem_iff.mpr (mem_counts.mpr rfl))

theorem holds_of_gives {changes : List (Feature × Int)}
    (gives : List.Forall₂ Gives members changes) : ∀ change ∈ changes, change.1.Holds change.2 := by
  induction gives with
  | nil => exact nofun
  | cons first _ ih =>
      obtain ⟨-, numeral, -, -, holds⟩ := first
      exact List.forall_mem_cons.mpr ⟨holds, ih⟩

theorem read_eq_ok (whole : Document.read text = (.object members ending, more)) :
    read text = .ok features ↔ ending = none ∧ more = false ∧ Describes members features := by
  rw [read_object whole]
  refine and_congr_right fun _ => and_congr_right fun _ => ?_
  constructor
  · rintro ⟨seen, set, complete⟩
    obtain ⟨others, changes, gives, distinct, -, same⟩ := setMembers_eq_ok.mp set
    obtain ⟨rfl, rfl⟩ := Prod.mk.inj same
    refine ⟨⟨changes, gives, ?_⟩, others⟩
    exact (setAll_eq_iff (holds_of_gives gives)).mp
      ⟨distinct, fun feature => by simpa using complete feature, rfl⟩
  · rintro ⟨⟨changes, gives, order⟩, others⟩
    obtain ⟨distinct, complete, rfl⟩ := (setAll_eq_iff (holds_of_gives gives)).mpr order
    refine ⟨(changes.map Prod.fst).reverse, setMembers_eq_ok.mpr
      ⟨others, changes, gives, distinct, nofun, by rw [List.append_nil]⟩, ?_⟩
    exact fun feature => List.mem_reverse.mpr (complete feature)

theorem gives_unique : Relator.RightUnique Gives := by
  rintro member ⟨feature, count⟩ ⟨other, again⟩ ⟨named, numeral, isNumeral, value, -⟩
    ⟨same, second, isSecond, equal, -⟩
  obtain rfl := Feature.name_injective (Except.ok.inj (named.symm.trans same))
  cases isNumeral.symm.trans isSecond
  cases value.symm.trans equal
  rfl

theorem names_of_gives {given : List (Feature × Int)} (gives : List.Forall₂ Gives members given) :
    members.map Prod.fst = given.map fun count => .ok count.1.name := by
  induction gives with
  | nil => rfl
  | cons first _ ih => rw [List.map_cons, List.map_cons, ih, first.1]

namespace Describes

theorem once (describes : Describes members features) (feature : Feature) :
    (members.map Prod.fst).count (.ok feature.name) = 1 := by
  obtain ⟨⟨given, gives, order⟩, -⟩ := describes
  have among : (members.map Prod.fst).count (.ok feature.name) =
      ((members.filter namesCount).map Prod.fst).count (.ok feature.name) := by
    rw [List.count_eq_countP, List.count_eq_countP, List.countP_map, List.countP_map,
      List.countP_filter]
    refine List.countP_congr fun member _ => ?_
    simp only [Function.comp_apply, beq_iff_eq, Bool.and_eq_true]
    exact ⟨fun named => ⟨named, namesCount_of_eq named⟩, And.left⟩
  have names : (given.map fun count => Except.ok count.1.name).Perm
      (Feature.all.map fun feature => (.ok feature.name : Except JsonFault String)) :=
    order.map _
  rw [among, names_of_gives gives, names.count_eq]
  cases feature <;> decide

theorem exists_gives (describes : Describes members features) (feature : Feature) :
    ∃ member ∈ members, Gives member (feature, features.get feature) := by
  obtain ⟨⟨given, gives, order⟩, -⟩ := describes
  have among : (feature, features.get feature) ∈ given := order.mem_iff.mpr (mem_counts.mpr rfl)
  obtain ⟨place, inside, found⟩ := List.getElem_of_mem among
  have inner : place < (members.filter namesCount).length := gives.length_eq ▸ inside
  have here := gives.get inner inside
  rw [List.get_eq_getElem, List.get_eq_getElem, found] at here
  exact ⟨_, (List.mem_filter.mp (List.getElem_mem inner)).1, here⟩

/-- Other members that name the same counts describe the same, whatever else there is. -/
theorem congr (describes : Describes members features)
    (same : (others.filter namesCount).Perm (members.filter namesCount))
    (skip : ∀ member ∈ others, namesCount member = false → CanBeSkipped member) :
    Describes others features := by
  obtain ⟨⟨given, gives, order⟩, -⟩ := describes
  obtain ⟨sorted, again, reordered⟩ := List.perm_comp_forall₂ same gives
  exact ⟨⟨sorted, again, reordered.trans order⟩, skip⟩

theorem unique (describes : Describes members features) (again : Describes members other) :
    features = other := by
  obtain ⟨⟨given, gives, order⟩, -⟩ := describes
  obtain ⟨⟨second, equal, reordered⟩, -⟩ := again
  obtain rfl := List.right_unique_forall₂' gives_unique gives equal
  refine ext_get fun feature => ?_
  have here : (feature, features.get feature) ∈ features.counts := mem_counts.mpr rfl
  exact (mem_counts.mp ((order.symm.trans reordered).mem_iff.mp here)).symm

end Describes

end Objects

/-! ## Written values -/

section Written
variable {features : Features} {members : List (String × Json)}

def toMembers (features : Features) : List (String × Json) :=
  Feature.all.map fun feature => (feature.name, .number (.whole (features.get feature)))

def countMembers (members : List (String × Json)) : List (String × Json) :=
  members.filter fun member => (Feature.ofName? member.1).isSome

theorem gives_toMembers (fit : features.Fit) :
    List.Forall₂ Gives (Json.memberDocuments features.toMembers) features.counts := by
  rw [Json.memberDocuments_eq_map, toMembers, counts, List.map_map, List.forall₂_map_left_iff,
    List.forall₂_map_right_iff, List.forall₂_same]
  intro feature _
  have holds := fit feature
  have signed : (Numeral.signedLimit : Int) = 2 ^ 63 := rfl
  have word : (Numeral.wordLimit : Int) = 2 ^ 64 := rfl
  have inside : -(Numeral.signedLimit : Int) ≤ features.get feature ∧
      features.get feature < Numeral.wordLimit := by
    rw [Feature.Holds] at holds
    split_ifs at holds <;> omega
  exact ⟨rfl, .ofInt _, rfl, Numeral.value?_ofInt inside.1 inside.2, holds⟩

theorem describes_memberDocuments (fit : features.Fit)
    (same : (countMembers members).Perm features.toMembers) :
    Describes (Json.memberDocuments members) features := by
  refine ⟨?_, ?_⟩
  · have filtered : (Json.memberDocuments members).filter namesCount =
        Json.memberDocuments (countMembers members) := by
      rw [Json.memberDocuments_eq_map, Json.memberDocuments_eq_map, List.filter_map]
      rfl
    have order : (Json.memberDocuments (countMembers members)).Perm
        (Json.memberDocuments features.toMembers) := by
      rw [Json.memberDocuments_eq_map, Json.memberDocuments_eq_map]
      exact same.map _
    rw [filtered]
    exact List.perm_comp_forall₂ order (gives_toMembers fit)
  · rw [Json.memberDocuments_eq_map]
    intro member among _
    obtain ⟨written, -, rfl⟩ := List.mem_map.mp among
    exact ⟨written.1, rfl, Document.skipFault?_document written.2⟩

theorem countMembers_toMembers (features : Features) :
    countMembers features.toMembers = features.toMembers := by
  rw [countMembers, toMembers, List.filter_eq_self]
  intro member among
  obtain ⟨feature, -, rfl⟩ := List.mem_map.mp among
  rw [Feature.ofName?_name, Option.isSome_some]

end Written

/-- Counts survive their texts.  Counts that fit are read back from their compact text, and from
that of every object whose members that name a count are the same in any order, whatever the other
members are.  In every object that is read each of the seven names occurs once, with an integer that
its field can hold.  With its members in another order it is read as the same counts.  So is every
complete object whose members that name a count are the same and whose others can be skipped, and
none of these is read as other counts. -/
theorem features_survive_texts :
    (∀ features : Features, features.Fit →
      read (String.ofList features.toJson.compact) = .ok features ∧
      ∀ members, (countMembers members).Perm features.toMembers →
        read (String.ofList (Json.object members).compact) = .ok features) ∧
    ∀ text members ending more features,
      Document.read text = (.object members ending, more) → read text = .ok features →
      (∀ feature : Feature, (members.map Prod.fst).count (.ok feature.name) = 1 ∧
        ∃ numeral : Numeral, (.ok feature.name, .number numeral) ∈ members ∧
          numeral.toRat = (features.get feature : ℚ) ∧ feature.Holds (features.get feature)) ∧
      (∀ other others, Document.read other = (.object others none, false) →
        others.Perm members → read other = .ok features) ∧
      ∀ other others ending more, Document.read other = (.object others ending, more) →
        (others.filter namesCount).Perm (members.filter namesCount) →
        (∀ found, read other = .ok found → found = features) ∧
        (ending = none → more = false →
          (∀ member ∈ others, namesCount member = false → CanBeSkipped member) →
          read other = .ok features) := by
  constructor
  · intro features fit
    have written (members : List (String × Json))
        (same : (countMembers members).Perm features.toMembers) :
        read (String.ofList (Json.object members).compact) = .ok features :=
      (read_eq_ok (Document.read_compact (.object members))).mpr
        ⟨rfl, rfl, describes_memberDocuments fit same⟩
    refine ⟨?_, written⟩
    have own := written features.toMembers
    rw [countMembers_toMembers] at own
    exact own (List.Perm.refl _)
  · intro text members ending more features whole succeeds
    obtain ⟨-, -, describes⟩ := (read_eq_ok whole).mp succeeds
    have proper := Document.numbersProper_read text
    rw [whole, Document.NumbersProper, Document.membersProper_iff] at proper
    refine ⟨fun feature => ⟨describes.once feature, ?_⟩, ?_, ?_⟩
    · obtain ⟨⟨name, document⟩, among, named, numeral, isNumeral, value, holds⟩ :=
        describes.exists_gives feature
      obtain rfl : name = .ok feature.name := named
      obtain rfl : document = .number numeral := isNumeral
      exact ⟨numeral, among, Numeral.toRat_of_whole (proper _ among) value, holds⟩
    · intro other others again order
      refine (read_eq_ok again).mpr ⟨rfl, rfl, describes.congr (order.filter _) ?_⟩
      exact fun member among => describes.others member (order.subset among)
    · intro other others ending more again same
      refine ⟨fun found read => ?_, fun complete last skip => ?_⟩
      · obtain ⟨-, -, found⟩ := (read_eq_ok again).mp read
        exact found.unique (describes.congr same found.others)
      · exact (read_eq_ok again).mpr ⟨complete, last, describes.congr same skip⟩

def extremes : Features :=
  { joins := 2 ^ 64 - 1, subqueries := -2 ^ 63 }

def mixedMembers : List (String × Json) :=
  ("more", .array [.object [("joins", .null)]]) :: extremes.toMembers.reverse

/-- The greatest and the least count are read back, also from the mixed members, where the name
`joins` inside the first one does not count. -/
theorem extremes_survive :
    read (String.ofList extremes.toJson.compact) = .ok extremes ∧
      read (String.ofList (Json.object mixedMembers).compact) = .ok extremes ∧
      ∃ members, Document.read (String.ofList (Json.object mixedMembers).compact) =
          (.object members none, false) ∧
        members.head? = some (.ok "more", .array [.object [(.ok "joins", .null)] none] none) ∧
        ∃ numeral : Numeral, (.ok "joins", .number numeral) ∈ members ∧
          numeral.toRat = ((2 ^ 64 - 1 : Int) : ℚ) := by
  have fit : extremes.Fit := by
    intro feature
    cases feature <;> simp [extremes, Feature.Holds, get]
  have same : (countMembers mixedMembers).Perm extremes.toMembers := by
    have unnamed : countMembers mixedMembers = countMembers extremes.toMembers.reverse := rfl
    rw [unnamed, countMembers, List.filter_reverse]
    exact (List.reverse_perm _).trans (.of_eq (countMembers_toMembers extremes))
  obtain ⟨written, read⟩ := features_survive_texts
  obtain ⟨own, mixed⟩ := written extremes fit
  have succeeds := mixed mixedMembers same
  have whole := Document.read_compact (.object mixedMembers)
  obtain ⟨given, -⟩ := read _ _ _ _ extremes whole succeeds
  obtain ⟨-, numeral, among, value, -⟩ := given .joins
  exact ⟨own, succeeds, _, whole, rfl, numeral, among, value⟩

end Features
end SqlMetrics
