import SqlMetrics.Proofs.InTurn
import SqlMetrics.Proofs.Shape
import SqlMetrics.Proofs.Sweep

/-! # The lists among the nodes

Where there was no list before, the lists that `groupLists` makes are the widest runs of members
with commas between them, each in its place (`groupLists_eq_append`).  One step takes a member with
all that goes on with it (`listRule_cases`), so no run begins behind a member and its comma
(`not_endsInComma_step`) and none goes on behind its list (`listTail_behind`).  In the result no
comma is left between two members (`no_comma_left`). -/
set_option autoImplicit false
namespace SqlMetrics

open Node

/-- Two or more members with commas between them. -/
def ListRun (nodes : List Node) : Prop :=
  3 ≤ nodes.length ∧ nodes.length % 2 = 1 ∧ InTurn isListMember (·.isPunctuation ",") nodes

abbrev EndsInComma (nodes : List Node) : Prop :=
  EndsInPair isListMember (·.isPunctuation ",") nodes

variable {left comma right node : Node} {front run behind rest nodes : List Node}

theorem isGroupOf_of_isListMember (member : isListMember node = true) :
    node.isGroupOf .identifierList = false := by
  cases node with
  | leaf content => rfl
  | group kind children =>
      simp only [isListMember, Bool.or_eq_true, decide_eq_true_eq] at member
      rcases member with ((rfl | rfl) | rfl) | rfl <;> rfl

theorem isPunctuation_of_isListMember (member : isListMember node = true) :
    node.isPunctuation "," = false := by
  cases mark : node.isPunctuation "," with
  | false => rfl
  | true =>
      rw [isPunctuation_iff.mp mark] at member
      cases member

/-! ## One step -/

theorem inTurn_listTail (rest : List Node) :
    InTurn (·.isPunctuation ",") isListMember (listTail rest) ∧ (listTail rest).length % 2 = 0 := by
  fun_induction listTail rest with
  | case1 comma member rest separated ih =>
      simp only [Bool.and_eq_true] at separated
      refine ⟨⟨separated.1, separated.2, ih.1⟩, ?_⟩
      rw [List.length_cons, List.length_cons]
      omega
  | case2 comma member rest other => exact ⟨trivial, rfl⟩
  | case3 rest short => exact ⟨trivial, rfl⟩

/-- A node is left alone, or it is a member and takes all that goes on with it. -/
theorem listRule_cases (node : Node) (rest : List Node) :
    listRule node rest = (node, 0) ∧ (isListMember node = true → listTail rest = []) ∨
    ListRun (node :: listTail rest) ∧
      listRule node rest =
        (.group .identifierList (node :: listTail rest), (listTail rest).length) := by
  rw [listRule]
  by_cases member : isListMember node = true
  · rw [if_pos member]
    dsimp only
    by_cases noTail : listTail rest = []
    · rw [noTail]
      exact .inl ⟨rfl, fun _ => rfl⟩
    · obtain ⟨inTurn, even⟩ := inTurn_listTail rest
      have filled := List.length_pos_iff.mpr noTail
      rw [if_neg (by simpa using noTail)]
      refine .inr ⟨⟨?_, ?_, member, inTurn⟩, rfl⟩
      · rw [List.length_cons]
        omega
      · rw [List.length_cons]
        omega
  · rw [if_neg member]
    exact .inl ⟨rfl, fun it => absurd it member⟩

theorem listRule_makes : Makes .identifierList listRule := by
  intro node rest
  rcases listRule_cases node rest with ⟨kept, -⟩ | ⟨-, made⟩
  · exact .inl kept
  · rw [made]
    exact .inr rfl

theorem listTail_drop (rest : List Node) : listTail (rest.drop (listTail rest).length) = [] := by
  fun_induction listTail rest with
  | case1 comma member rest separated ih => exact ih
  | case2 comma member rest other => rw [List.length_nil, List.drop_zero, listTail, if_neg other]
  | case3 rest short => rw [List.length_nil, List.drop_zero, listTail.eq_2 rest short]

theorem listTail_behind (member : isListMember node = true) :
    listTail (rest.drop (listRule node rest).2) = [] := by
  rcases listRule_cases node rest with ⟨kept, noTail⟩ | ⟨-, made⟩
  · rw [kept, List.drop_zero]
    exact noTail member
  · rw [made]
    exact listTail_drop rest

/-! ## Runs become lists -/

theorem listTail_append_inTurn {tail : List Node}
    (inTurn : InTurn (·.isPunctuation ",") isListMember tail) (even : tail.length % 2 = 0)
    (behind : List Node) : listTail (tail ++ behind) = tail ++ listTail behind := by
  match tail with
  | [] => rfl
  | [_] => cases even
  | comma :: member :: rest =>
      obtain ⟨isComma, isMember, later⟩ := inTurn
      have fewer : rest.length % 2 = 0 := by
        rw [List.length_cons, List.length_cons] at even
        omega
      rw [List.cons_append, List.cons_append, listTail, if_pos (by simp [isComma, isMember]),
        listTail_append_inTurn later fewer behind, List.cons_append, List.cons_append]

theorem ListRun.not_endsInComma (isRun : ListRun run) : ¬ EndsInComma run := by
  rintro ⟨member, comma, ⟨outer, rfl⟩, isMember, -⟩
  obtain ⟨-, odd, inTurn⟩ := isRun
  rw [List.length_append, List.length_cons, List.length_singleton] at odd
  have misplaced := (inTurn_append.mp inTurn).2
  rw [if_neg (by omega)] at misplaced
  have mark := isPunctuation_of_isListMember isMember
  exact Bool.false_ne_true (mark.symm.trans misplaced.1)

theorem listTail_append_member (member : isListMember node = true)
    (apart : ¬ EndsInComma (node :: rest)) (fresh : isListMember left = true) :
    listTail (rest ++ left :: behind) = listTail rest := by
  have noComma := isPunctuation_of_isListMember fresh
  fun_induction listTail rest generalizing node with
  | case1 comma next rest separated ih =>
      rw [List.cons_append, List.cons_append, listTail, if_pos separated]
      rw [Bool.and_eq_true] at separated
      rw [ih separated.2 fun ends => apart
        (ends.mono ((List.suffix_cons comma _).trans (List.suffix_cons node _)))]
  | case2 comma next rest other => rw [List.cons_append, List.cons_append, listTail, if_neg other]
  | case3 rest short =>
      match rest with
      | [] => cases behind <;> simp [listTail, noComma]
      | [comma] =>
          have noMark : comma.isPunctuation "," = false := Bool.eq_false_iff.mpr fun mark =>
            apart ⟨node, comma, List.suffix_refl _, member, mark⟩
          simp [listTail, noMark]
      | comma :: next :: rest => exact absurd rfl (short comma next rest)

theorem listRule_append_member (apart : ¬ EndsInComma (node :: rest))
    (fresh : isListMember left = true) :
    listRule node (rest ++ left :: behind) = listRule node rest ∧
      (listRule node rest).2 ≤ rest.length := by
  refine ⟨?_, ?_⟩
  · rw [listRule, listRule]
    by_cases member : isListMember node = true
    · rw [listTail_append_member member apart fresh]
    · rw [if_neg member, if_neg member]
  · rcases listRule_cases node rest with ⟨kept, -⟩ | ⟨-, made⟩
    · rw [kept]
      exact Nat.zero_le _
    · rw [made]
      exact (listTail_begins rest).length_le

/-- A run that neither the nodes before it nor those behind it carry on becomes a list. -/
theorem groupLists_run (isRun : ListRun run) (apart : ¬ EndsInComma front)
    (ends : listTail behind = []) :
    groupLists (front ++ run ++ behind) =
      groupLists front ++ .group .identifierList run :: groupLists behind := by
  obtain ⟨long, odd, inTurn⟩ := isRun
  match run with
  | [] => cases odd
  | first :: tail =>
      obtain ⟨isMember, inTurn⟩ := inTurn
      rw [List.length_cons] at long odd
      have whole : listTail (tail ++ behind) = tail := by
        rw [listTail_append_inTurn inTurn (by omega), ends, List.append_nil]
      have filled : tail ≠ [] := List.length_pos_iff.mp (by omega)
      have made : listRule first (tail ++ behind) =
          (.group .identifierList (first :: tail), tail.length) := by
        rcases listRule_cases first (tail ++ behind) with ⟨-, noTail⟩ | ⟨-, made⟩
        · exact absurd (whole.symm.trans (noTail isMember)) filled
        · rwa [whole] at made
      have divided : sweep listRule (front ++ first :: (tail ++ behind)) =
          sweep listRule front ++ sweep listRule (first :: (tail ++ behind)) :=
        sweep_append fun node rest inside =>
          listRule_append_member (fun ends => apart (ends.mono inside)) isMember
      rw [groupLists, List.append_assoc, List.cons_append, divided, sweep_cons, made,
        List.drop_left]

/-- A run is a widest one if no comma with a member stands on either side. -/
theorem widest_listRun_iff : Widest ListRun front run behind ↔
    ListRun run ∧ ¬ EndsInComma front ∧ listTail behind = [] := by
  constructor
  · rintro ⟨⟨long, odd, inTurn⟩, noWider⟩
    refine ⟨⟨long, odd, inTurn⟩, ?_, ?_⟩
    · rintro ⟨member, comma, ⟨outer, rfl⟩, isMember, isComma⟩
      have wider : ListRun ([member, comma] ++ run ++ []) := by
        rw [List.append_nil]
        refine ⟨?_, ?_, isMember, isComma, inTurn⟩
        · rw [List.length_append]
          omega
        · rw [List.length_append, List.length_cons, List.length_singleton]
          omega
      exact absurd (noWider outer _ [] behind rfl rfl wider).1 (List.cons_ne_nil _ _)
    · obtain ⟨beyond, split⟩ := listTail_begins behind
      obtain ⟨taken, even⟩ := inTurn_listTail behind
      have wider : ListRun ([] ++ run ++ listTail behind) := by
        rw [List.nil_append]
        refine ⟨?_, ?_, inTurn_append.mpr ⟨inTurn, ?_⟩⟩
        · rw [List.length_append]
          omega
        · rw [List.length_append]
          omega
        · rwa [if_neg (by omega)]
      exact (noWider front [] _ beyond (List.append_nil front).symm split.symm wider).2
  · rintro ⟨⟨long, odd, inTurn⟩, apart, ends⟩
    refine ⟨⟨long, odd, inTurn⟩, ?_⟩
    rintro outer before after beyond rfl rfl ⟨-, wideOdd, wider⟩
    have filled : run ≠ [] := List.length_pos_iff.mp (by omega)
    rw [List.append_assoc] at wider
    obtain rfl := before_eq_nil (fun _ => isPunctuation_of_isListMember) filled inTurn apart wider
    have later := (inTurn_append.mp wider).2
    rw [List.length_append, List.length_append, List.length_nil] at wideOdd
    rw [List.length_nil, if_pos rfl, inTurn_append, if_neg (by omega)] at later
    rw [listTail_append_inTurn later.2 (by omega) beyond] at ends
    exact ⟨rfl, (List.append_eq_nil_iff.mp ends).1⟩

/-! ## Lists were runs -/

theorem run_of_groupLists {items after : List Node}
    (noList : ∀ node ∈ nodes, node.isGroupOf .identifierList = false)
    (split : groupLists nodes = .group .identifierList items :: after) :
    ∃ behind, nodes = items ++ behind ∧ ListRun items ∧ listTail behind = [] ∧
      groupLists behind = after := by
  rw [groupLists] at split
  cases nodes with
  | nil => simp at split
  | cons node rest =>
      rw [sweep_cons, List.cons.injEq] at split
      obtain ⟨isList, later⟩ := split
      rcases listRule_cases node rest with ⟨kept, -⟩ | ⟨isRun, made⟩
      · rw [kept] at isList
        have other := noList node List.mem_cons_self
        rw [show node = _ from isList] at other
        cases other
      · rw [made] at isList later
        obtain ⟨-, rfl⟩ := Node.group.inj isList
        have whole := List.prefix_iff_eq_append.mp (listTail_begins rest)
        refine ⟨rest.drop (listTail rest).length, ?_, isRun, listTail_drop rest, later⟩
        rw [List.cons_append, whole]

theorem not_endsInComma_step (isRun : ListRun run) (apart : ¬ EndsInComma front)
    (split : rest.drop (listRule node rest).2 = front ++ run ++ behind) :
    ¬ EndsInComma (node :: rest.take (listRule node rest).2 ++ front) := by
  intro ends
  rcases endsInPair_append ends with rfl | ⟨comma, rfl, isComma⟩ | inFront
  · rw [List.append_nil] at ends
    rcases listRule_cases node rest with ⟨kept, -⟩ | ⟨taken, made⟩
    · obtain ⟨member, comma, inside, -⟩ := ends
      rw [kept] at inside
      exact absurd inside.length_le (by simp)
    · rw [made, take_length_of_begins (listTail_begins rest)] at ends
      exact taken.not_endsInComma ends
  · -- The comma would go on with the node: it stands between that and the first of the run.
    have isMember : isListMember node = true := by
      rcases listRule_cases node rest with ⟨kept, -⟩ | ⟨taken, -⟩
      · obtain ⟨member, mark, inside, isMember, -⟩ := ends
        rw [kept] at inside
        have same := (List.cons.inj (inside.eq_of_length rfl)).1
        rwa [← same]
      · exact taken.2.2.1
    have noTail : listTail (rest.drop (listRule node rest).2) = [] := listTail_behind isMember
    obtain ⟨-, odd, inTurn⟩ := isRun
    match run with
    | [] => cases odd
    | first :: tail =>
        rw [split] at noTail
        simp [listTail, isComma, inTurn.1] at noTail
  · exact apart inFront

/-- Every list that is made is a run, and nothing on either side goes on with it. -/
theorem exists_run {items before after : List Node}
    (noList : ∀ node ∈ nodes, node.isGroupOf .identifierList = false)
    (split : groupLists nodes = before ++ .group .identifierList items :: after) :
    ∃ front behind, nodes = front ++ items ++ behind ∧ ListRun items ∧ ¬ EndsInComma front ∧
      listTail behind = [] ∧ groupLists behind = after := by
  induction before generalizing nodes with
  | nil =>
      obtain ⟨behind, rfl, isRun, ends, later⟩ := run_of_groupLists noList split
      refine ⟨[], behind, rfl, isRun, ?_, ends, later⟩
      rintro ⟨member, comma, inside, -⟩
      exact absurd inside.length_le (by simp)
  | cons made before ih =>
      cases nodes with
      | nil => simp [groupLists] at split
      | cons node rest =>
          rw [groupLists, sweep_cons, List.cons_append, List.cons.injEq] at split
          obtain ⟨front, behind, there, isRun, apart, ends, later⟩ :=
            ih (fun next inside => noList next (.tail _ (List.mem_of_mem_drop inside))) split.2
          refine ⟨node :: rest.take (listRule node rest).2 ++ front, behind, ?_, isRun, ?_, ends,
            later⟩
          · rw [List.append_assoc, List.append_assoc, ← List.append_assoc front, ← there,
              List.cons_append, List.take_append_drop]
          · exact not_endsInComma_step isRun apart there

/-- The lists are the widest runs, each in its place. -/
theorem groupLists_eq_append {items before after : List Node}
    (noList : ∀ node ∈ nodes, node.isGroupOf .identifierList = false) :
    groupLists nodes = before ++ .group .identifierList items :: after ↔
      ∃ front behind, nodes = front ++ items ++ behind ∧ Widest ListRun front items behind ∧
        before = groupLists front ∧ after = groupLists behind := by
  constructor
  · intro split
    obtain ⟨front, behind, rfl, isRun, apart, ends, rfl⟩ := exists_run noList split
    refine ⟨front, behind, rfl, widest_listRun_iff.mpr ⟨isRun, apart, ends⟩, ?_, rfl⟩
    have made := groupLists_run isRun apart ends
    exact (List.append_cancel_right (made.symm.trans split)).symm
  · rintro ⟨front, behind, rfl, widest, rfl, rfl⟩
    obtain ⟨isRun, apart, ends⟩ := widest_listRun_iff.mp widest
    exact groupLists_run isRun apart ends

/-- Behind the pass for lists no comma stands between a member or a list and a member. -/
theorem no_comma_left (noList : ∀ node ∈ nodes, node.isGroupOf .identifierList = false)
    (split : groupLists nodes = front ++ left :: comma :: right :: behind) :
    ¬ ((isListMember left = true ∨ left.isGroupOf .identifierList = true) ∧
      comma.isPunctuation "," = true ∧ isListMember right = true) := by
  rintro ⟨isLeft, isComma, isRight⟩
  obtain ⟨there, inside, swept⟩ := exists_suffix_of_sweep split
  have taken : ∃ rest, sweep listRule rest = comma :: right :: behind ∧ listTail rest = [] := by
    rcases isLeft with member | isList
    · obtain ⟨rest, rfl, kept, later⟩ :=
        listRule_makes.exists_of_sweep (isGroupOf_of_isListMember member) swept
      have noTail : listTail (rest.drop (listRule left rest).2) = [] := listTail_behind member
      rw [kept] at noTail
      exact ⟨rest, later, noTail⟩
    · obtain ⟨items, rfl⟩ := isGroupOf_iff.mp isList
      obtain ⟨rest, -, -, ends, later⟩ :=
        run_of_groupLists (fun node member => noList node (inside.subset member)) swept
      exact ⟨rest, later, ends⟩
  obtain ⟨rest, later, noTail⟩ := taken
  obtain ⟨rest, rfl, -, later⟩ :=
    listRule_makes.exists_of_sweep (by rw [isPunctuation_iff.mp isComma]; rfl) later
  obtain ⟨rest, rfl, -, -⟩ :=
    listRule_makes.exists_of_sweep (isGroupOf_of_isListMember isRight) later
  simp [listTail, isComma, isRight] at noTail

end SqlMetrics
