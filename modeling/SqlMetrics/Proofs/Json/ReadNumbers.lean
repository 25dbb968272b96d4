import Mathlib.Data.List.TakeWhile
import SqlMetrics.Proofs.Json.Numerals

/-! # Numbers that are read

The grammar of numbers is all that the reader takes for one: whatever the text, every number of its
document is a proper numeral (`numbersProper_read`). -/
set_option autoImplicit false
namespace SqlMetrics
namespace Document

open Numeral

mutual

def NumbersProper : Document → Prop
  | .number numeral => numeral.Proper
  | .array items _ => ItemsProper items
  | .object members _ => MembersProper members
  | .null | .bool _ | .text _ | .broken _ => True

def ItemsProper : List Document → Prop
  | [] => True
  | item :: rest => item.NumbersProper ∧ ItemsProper rest

def MembersProper : List Member → Prop
  | [] => True
  | (_, value) :: rest => value.NumbersProper ∧ MembersProper rest

end

theorem itemsProper_iff {items : List Document} :
    ItemsProper items ↔ ∀ item ∈ items, item.NumbersProper := by
  induction items with
  | nil => simp [ItemsProper]
  | cons item rest ih => rw [ItemsProper, ih, List.forall_mem_cons]

theorem membersProper_iff {members : List Member} :
    MembersProper members ↔ ∀ member ∈ members, member.2.NumbersProper := by
  induction members with
  | nil => simp [MembersProper]
  | cons member rest ih => rw [MembersProper, ih, List.forall_mem_cons]

/-! ## Scalars -/

theorem numbersProper_missingDigit (behind : List Char) : (missingDigit behind).NumbersProper := by
  cases behind <;> trivial

theorem numbersProper_readExponent {negative : Bool} {whole fraction : List Char}
    (proper : ∀ exponent, Proper ⟨negative, whole, fraction, exponent⟩) (size : Nat)
    (input : List Char) : (readExponent negative whole fraction size input).1.NumbersProper := by
  cases input with
  | nil => exact proper none
  | cons mark rest =>
      rw [readExponent]
      split_ifs
      · dsimp only
        split_ifs
        · exact numbersProper_missingDigit _
        all_goals exact proper _
      · exact proper none

theorem numbersProper_readUnsigned (negative : Bool) (size : Nat) (input : List Char) :
    (readUnsigned negative size input).1.NumbersProper := by
  rw [readUnsigned]
  dsimp only
  split_ifs with empty long point missing
  · exact numbersProper_missingDigit _
  · trivial
  · exact numbersProper_missingDigit _
  all_goals
    have filled : input.takeWhile Char.isDigit ≠ [] := by simpa using empty
    have single : (input.takeWhile Char.isDigit).head? = some '0' →
        input.takeWhile Char.isDigit = ['0'] := by
      intro zero
      obtain ⟨others, split⟩ := List.head?_eq_some_iff.mp zero
      rw [split] at long ⊢
      cases others with
      | nil => rfl
      | cons => simp at long
  · exact numbersProper_readExponent (fun exponent =>
      ⟨filled, fun _ => List.mem_takeWhile_imp, fun _ => List.mem_takeWhile_imp, single⟩) _ _
  · exact numbersProper_readExponent (fun exponent =>
      ⟨filled, fun _ => List.mem_takeWhile_imp, by simp, single⟩) _ _

theorem numbersProper_readNumber (input : List Char) : (readNumber input).1.NumbersProper := by
  rw [readNumber]
  split_ifs <;> exact numbersProper_readUnsigned _ _ _

theorem numbersProper_readWord {value : Document} (scalar : value.NumbersProper)
    (letters input : List Char) : (readWord value letters input).1.NumbersProper := by
  induction letters generalizing input with
  | nil => exact scalar
  | cons letter letters ih =>
      cases input with
      | nil => trivial
      | cons c rest =>
          rw [readWord]
          split_ifs
          · exact ih rest
          · trivial

theorem numbersProper_readText (input : List Char) : (readText input).1.NumbersProper := by
  rw [readText]
  split
  · trivial
  · split <;> trivial

theorem numbersProper_scalarAt (c : Char) (rest : List Char) :
    (scalarAt c rest).1.NumbersProper := by
  rw [scalarAt]
  split_ifs
  · exact numbersProper_readText rest
  · exact numbersProper_readWord (show NumbersProper .null from trivial) _ rest
  · exact numbersProper_readWord (show NumbersProper (.bool true) from trivial) _ rest
  · exact numbersProper_readWord (show NumbersProper (.bool false) from trivial) _ rest
  · exact numbersProper_readNumber _
  · trivial

/-! ## Values -/

theorem length_behind {input further behind : List Char} {d : Char}
    (shorter : behind.length < input.length) (next : skipSpace behind = d :: further) :
    further.length < input.length := by
  have bound := length_skipSpace behind
  rw [next, List.length_cons] at bound
  omega

mutual

theorem numbersProper_readValue (input : List Char) : (readValue input).1.NumbersProper := by
  have value := congrArg Prod.fst (@readValue_eq input)
  dsimp only at value
  rw [value]
  cases spaced : skipSpace input with
  | nil => trivial
  | cons c rest =>
      have shorter : rest.length < input.length := by
        have bound := length_skipSpace input
        rw [spaced, List.length_cons] at bound
        omega
      rw [valueAt]
      split_ifs
      · exact itemsProper_readItems true rest
      · exact membersProper_readMembers true rest
      · exact numbersProper_scalarAt c rest
termination_by (input.length, 0)
decreasing_by all_goals omega

theorem itemsProper_readItems (first : Bool) (input : List Char) :
    ItemsProper (readItems first input).1.1 := by
  have last : ItemsProper [(readValue input).1] := ⟨numbersProper_readValue input, trivial⟩
  rw [readItems]
  split
  · split_ifs
    · trivial
    · exact ⟨trivial, trivial⟩
  · dsimp only
    split_ifs
    · trivial
    · split
      · exact last
      · rename_i behind _
        split
        · exact last
        · rename_i next
          have shorter := length_behind behind.2 next
          split_ifs
          · exact last
          · exact ⟨last.1, itemsProper_readItems false _⟩
          · exact last
termination_by (input.length, 1)
decreasing_by all_goals omega

theorem membersProper_readMembers (first : Bool) (input : List Char) :
    MembersProper (readMembers first input).1.1 := by
  rw [readMembers]
  split
  · trivial
  · rename_i c rest starts
    dsimp only
    split_ifs
    · trivial
    · split
      · trivial
      · rename_i name size _
        split
        · exact ⟨trivial, trivial⟩
        · rename_i d behindColon colon
          have bound := length_skipSpace input
          have nameBound := length_skipSpace (rest.drop size)
          rw [starts, List.length_cons] at bound
          rw [colon, List.length_cons, List.length_drop] at nameBound
          have inner : behindColon.length < input.length := by omega
          have value := numbersProper_readValue behindColon
          split_ifs
          · split
            · exact ⟨value, trivial⟩
            · rename_i behind _
              split
              · exact ⟨value, trivial⟩
              · rename_i next
                have shorter := length_behind (behind.2.trans inner) next
                split_ifs
                · exact ⟨value, trivial⟩
                · exact ⟨value, membersProper_readMembers false _⟩
                · exact ⟨value, trivial⟩
          · exact ⟨trivial, trivial⟩
    · trivial
termination_by (input.length, 1)
decreasing_by all_goals omega

end

/-- Every number of a text that is read is a proper numeral. -/
theorem numbersProper_read (text : String) : (read text).1.NumbersProper :=
  numbersProper_readValue text.toList

end Document
end SqlMetrics
