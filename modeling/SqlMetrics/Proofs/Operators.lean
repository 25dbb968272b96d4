import Mathlib.Data.List.Induction
import SqlMetrics.Features.Counters
import SqlMetrics.Token.Operator

/-! # Operators read from a text

Of the spellings in the table of a dialect that the text begins with, the longest is read
(`longest?_spec`).  So further characters never extend an operator to the spelling of a comparison,
which would have been read as such (`extended_not_symbol`). -/
set_option autoImplicit false
namespace SqlMetrics
namespace Operator

/-! ## The longest spelling -/

/-- What was found among the entries: one that the text begins with and none of them is longer. -/
structure Longest (entries : List Operator) (input : List Char) (found : Option Operator) :
    Prop where
  member : ∀ entry ∈ found, entry ∈ entries
  begins : ∀ entry ∈ found, entry.spelling.toList <+: input
  longest : ∀ entry ∈ entries, entry.spelling.toList <+: input →
    ∃ best ∈ found, entry.spelling.length ≤ best.spelling.length

theorem longest?_concat (entries : List Operator) (entry : Operator) (input : List Char) :
    longest? (entries ++ [entry]) input =
      if entry.spelling.toList.isPrefixOf input
          && (longest? entries input).all (fun found =>
            found.spelling.length < entry.spelling.length)
      then some entry else longest? entries input := by
  rw [longest?, List.foldl_append, List.foldl_cons, List.foldl_nil]
  rfl

theorem longest?_spec (entries : List Operator) (input : List Char) :
    Longest entries input (longest? entries input) := by
  induction entries using List.reverseRecOn with
  | nil =>
      exact ⟨fun _ found => (nomatch found), fun _ found => (nomatch found),
        fun _ member => (nomatch member)⟩
  | append_singleton entries entry ih =>
      obtain ⟨member, begins, longest⟩ := ih
      rw [longest?_concat]
      split
      case isTrue taken =>
        simp only [Bool.and_eq_true, List.isPrefixOf_iff_prefix, Option.all_eq_true,
          decide_eq_true_eq] at taken
        obtain ⟨here, longer⟩ := taken
        refine ⟨fun found same => ?_, fun found same => ?_, fun other inList starts => ?_⟩
        · cases same
          exact List.mem_append_right _ List.mem_cons_self
        · cases same
          exact here
        · refine ⟨entry, rfl, ?_⟩
          rcases List.mem_append.mp inList with before | last
          · obtain ⟨best, found, within⟩ := longest other before starts
            exact Nat.le_of_lt (Nat.lt_of_le_of_lt within (longer best found))
          · exact List.mem_singleton.mp last ▸ Nat.le_refl _
      case isFalse left =>
        refine ⟨fun found same => List.mem_append_left _ (member found same), begins,
          fun other inList starts => ?_⟩
        rcases List.mem_append.mp inList with before | last
        · exact longest other before starts
        · rw [List.mem_singleton.mp last] at starts ⊢
          simpa [List.isPrefixOf_iff_prefix.mpr starts, Option.all_eq_true] using left

section Table
variable {dialect : Dialect} {input : List Char} {entry : Operator}

/-! ## The table of a dialect -/

/-- The entries that some dialect has. -/
def known : List Operator :=
  common ++ geometric ++ [extensible "|>", fixed "//"]

theorem mem_known (member : entry ∈ table dialect) : entry ∈ known := by
  simp only [table, List.mem_append] at member
  simp only [known, List.mem_append]
  rcases member with ((inCommon | inGeometric) | inPipe) | inSlash
  · exact Or.inl (Or.inl inCommon)
  · split at inGeometric
    · exact Or.inl (Or.inr inGeometric)
    · cases inGeometric
  · split at inPipe
    · rw [List.mem_singleton.mp inPipe]
      exact Or.inr List.mem_cons_self
    · cases inPipe
  · split at inSlash
    · rw [List.mem_singleton.mp inSlash]
      exact Or.inr (List.mem_cons_of_mem _ List.mem_cons_self)
    · cases inSlash

theorem mem_table (member : entry ∈ common) : entry ∈ table dialect := by
  simp [table, member]

theorem exists_spelling {symbol : String} (member : symbol ∈ Node.comparisonSymbols) :
    ∃ entry ∈ common, entry.spelling = symbol := by
  have all : ∀ symbol ∈ Node.comparisonSymbols,
      ∃ entry ∈ common, entry.spelling = symbol := by decide
  exact all symbol member

theorem shown_ne (member : entry ∈ table dialect) : entry.shown ≠ "!=" := by
  have all : ∀ entry ∈ known, entry.shown ≠ "!=" := by decide
  exact all entry (mem_known member)

theorem extended_not_symbol (found : longest? (table dialect) input = some entry)
    {added : List Char}
    (behind : added = extensionOf dialect entry (input.drop entry.spelling.length))
    (filled : added ≠ []) : entry.shown ++ String.ofList added ∉ Node.comparisonSymbols := by
  intro symbol
  obtain ⟨member, begins, longest⟩ := longest?_spec (table dialect) input
  rw [found] at member begins longest
  obtain ⟨rest, rfl⟩ := begins entry rfl
  rw [← String.length_toList, List.drop_left] at behind
  have entries : ∀ entry ∈ known,
      entry.extension = .never ∨ entry.spelling = entry.shown ∨ 2 ≤ entry.shown.length := by decide
  have lengths : ∀ symbol ∈ Node.comparisonSymbols, symbol.length ≤ 2 := by decide
  have longer : (entry.shown ++ String.ofList added).length =
      entry.shown.length + added.length := by simp
  have further : 0 < added.length := List.length_pos_iff.mpr filled
  rcases entries entry (mem_known (member entry rfl)) with never | same | long
  · rw [extensionOf, never] at behind
    simp at behind
    exact filled behind
  · -- The whole would be a longer spelling that the text begins with.
    obtain ⟨other, inCommon, spelled⟩ := exists_spelling symbol
    have within : added <+: rest := by
      rw [behind, extensionOf]
      split
      · exact List.takeWhile_prefix _
      · exact List.nil_prefix
    have starts : other.spelling.toList <+: entry.spelling.toList ++ rest := by
      rw [spelled, same, String.toList_append, String.toList_ofList]
      exact (List.prefix_append_right_inj _).mpr within
    obtain ⟨best, isEntry, short⟩ := longest other (mem_table inCommon) starts
    cases isEntry
    rw [spelled, longer, same] at short
    omega
  · have short := lengths _ symbol
    omega

theorem longest?_symbol {c : Char} (symbol : c ∈ ['<', '>', '=', '!']) (rest : List Char) :
    longest? (table dialect) (c :: rest) ≠ none := by
  intro unmatched
  obtain ⟨-, -, longest⟩ := longest?_spec (table dialect) (c :: rest)
  have all : ∀ text ∈ ["<", ">", "=", "!"], ∃ entry ∈ common, entry.spelling = text := by decide
  have text : String.ofList [c] ∈ ["<", ">", "=", "!"] :=
    List.mem_map_of_mem (f := fun c => String.ofList [c]) symbol
  obtain ⟨entry, inCommon, same⟩ := all _ text
  have spelled : entry.spelling.toList = [c] := by rw [same, String.toList_ofList]
  obtain ⟨best, found, -⟩ := longest entry (mem_table inCommon) (by simp [spelled])
  rw [unmatched] at found
  cases found

end Table

end Operator
end SqlMetrics
