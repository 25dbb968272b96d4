import SqlMetrics.Json.Value
import SqlMetrics.Proofs.Json.Rules

/-! # Written strings are read back

A string that was written with escapes is read back by both ways of reading
(`readString_escaped`, `skipString_escaped`), whatever characters it holds. -/
set_option autoImplicit false
namespace SqlMetrics
namespace JsonText

open Json

variable {c : Char} {text behind rest : List Char}

theorem codeEscape_eq (control : c.toNat < 0x20) :
    ∃ digits, codeEscape c = '\\' :: 'u' :: digits ∧ digits.length = 4 ∧
      ∀ behind, unitAt (digits ++ behind) = .ok c.toNat := by
  have all : ∀ number < 0x20, ∃ digits, codeEscape (Char.ofNat number) = '\\' :: 'u' :: digits ∧
      digits.length = 4 ∧ (String.ofList digits).utf8ByteSize = 4 ∧
      hexNumber? digits = some number := by
    intro number small
    refine ⟨(codeEscape (Char.ofNat number)).drop 2, ?_⟩
    revert number
    decide
  obtain ⟨digits, escape, long, bytes, value⟩ := all c.toNat control
  rw [Char.ofNat_toNat] at escape
  refine ⟨digits, escape, long, fun behind => ?_⟩
  have front : (digits ++ behind).take 4 = digits := long ▸ List.take_left
  simp [unitAt, front, long, bytes, value]

theorem escapeChar_cases (c : Char) :
    (∃ d, escapeChar c = ['\\', d] ∧ d ≠ 'u' ∧ simpleEscape? d = some c) ∨
    c.toNat < 0x20 ∧ escapeChar c = codeEscape c ∨
    escapeChar c = [c] ∧ c ≠ '\x22' ∧ c ≠ '\\' ∧ ¬c.toNat < 0x20 := by
  have own (d : Char) (plain : d ≠ 'u') (named : simpleEscape? d = some c)
      (text : escapeChar c = ['\\', d]) :
      ∃ d, escapeChar c = ['\\', d] ∧ d ≠ 'u' ∧ simpleEscape? d = some c :=
    ⟨d, text, plain, named⟩
  by_cases quote : c = '\x22'
  · subst quote
    exact .inl (own '\x22' (by decide) rfl rfl)
  by_cases backslash : c = '\\'
  · subst backslash
    exact .inl (own '\\' (by decide) rfl rfl)
  by_cases backspace : c = '\x08'
  · subst backspace
    exact .inl (own 'b' (by decide) rfl rfl)
  by_cases formFeed : c = '\x0c'
  · subst formFeed
    exact .inl (own 'f' (by decide) rfl rfl)
  by_cases lineFeed : c = '\n'
  · subst lineFeed
    exact .inl (own 'n' (by decide) rfl rfl)
  by_cases carriageReturn : c = '\r'
  · subst carriageReturn
    exact .inl (own 'r' (by decide) rfl rfl)
  by_cases tab : c = '\t'
  · subst tab
    exact .inl (own 't' (by decide) rfl rfl)
  rw [escapeChar, if_neg quote, if_neg backslash, if_neg backspace, if_neg formFeed,
    if_neg lineFeed, if_neg carriageReturn, if_neg tab]
  by_cases control : c.toNat < 0x20
  · rw [if_pos control]
    exact .inr (.inl ⟨control, rfl⟩)
  · rw [if_neg control]
    exact .inr (.inr ⟨rfl, quote, backslash, control⟩)

theorem codeEscapeAt_eq {digits : List Char} (control : c.toNat < 0x20)
    (spelled : ∀ behind, unitAt (digits ++ behind) = .ok c.toNat) (behind : List Char) :
    codeEscapeAt (digits ++ behind) = .ok (c, 4) := by
  have low : isTrailingHalf c.toNat = false ∧ isLeadingHalf c.toNat = false := by
    simp only [isTrailingHalf, isLeadingHalf, Bool.and_eq_false_iff, decide_eq_false_iff_not]
    omega
  simp [codeEscapeAt, spelled, low]

theorem readString_escapeChar (c : Char) (behind : List Char) :
    readString (escapeChar c ++ behind) =
      (readString behind).map fun read => (c :: read.1, read.2 + (escapeChar c).length) := by
  rcases escapeChar_cases c with ⟨d, text, plain, named⟩ | ⟨control, text⟩ |
    ⟨text, notQuote, notBackslash, visible⟩
  · rw [text, readString.eq_def]
    simp [plain, named]
  · obtain ⟨digits, escape, long, spelled⟩ := codeEscape_eq control
    rw [text, escape, readString.eq_def]
    simp [codeEscapeAt_eq control spelled, long, List.drop_left' long]
  · rw [text, readString.eq_def]
    simp [notQuote, notBackslash, visible]

theorem skipString_escapeChar (c : Char) (behind : List Char) :
    skipString (escapeChar c ++ behind) =
      (skipString behind).map (· + (escapeChar c).length) := by
  rcases escapeChar_cases c with ⟨d, text, plain, named⟩ | ⟨control, text⟩ |
    ⟨text, notQuote, notBackslash, visible⟩
  · rw [text, skipString.eq_def]
    simp [plain, named]
  · obtain ⟨digits, escape, long, spelled⟩ := codeEscape_eq control
    rw [text, escape, skipString.eq_def]
    simp [spelled, long, List.drop_left' long]
  · rw [text, skipString.eq_def]
    simp [notQuote, notBackslash, visible]

theorem readString_escaped (text rest : List Char) :
    readString (text.flatMap escapeChar ++ '\x22' :: rest) =
      .ok (text, (text.flatMap escapeChar).length + 1) := by
  induction text with
  | nil =>
      rw [List.flatMap_nil, List.nil_append, readString.eq_def]
      rfl
  | cons c others ih =>
      rw [List.flatMap_cons, List.append_assoc, readString_escapeChar, ih, List.length_append]
      simp only [Except.map, Except.ok.injEq, Prod.mk.injEq, true_and]
      omega

theorem skipString_escaped (text rest : List Char) :
    skipString (text.flatMap escapeChar ++ '\x22' :: rest) =
      .ok ((text.flatMap escapeChar).length + 1) := by
  induction text with
  | nil =>
      rw [List.flatMap_nil, List.nil_append, skipString.eq_def]
      rfl
  | cons c others ih =>
      rw [List.flatMap_cons, List.append_assoc, skipString_escapeChar, ih, List.length_append]
      simp only [Except.map, Except.ok.injEq]
      omega

end JsonText

namespace Document

open JsonText

theorem readText_escaped (text : String) (rest : List Char) :
    readText (text.toList.flatMap Json.escapeChar ++ '\x22' :: rest) =
      (.text (.ok text), some ((text.toList.flatMap Json.escapeChar).length + 1)) := by
  rw [readText, readString_escaped, skipString_escaped]
  simp [Except.map]

theorem quoteText_append (text : String) (rest : List Char) :
    Json.quoteText text ++ rest =
      '\x22' :: (text.toList.flatMap Json.escapeChar ++ '\x22' :: rest) := by
  rw [Json.quoteText, List.append_assoc]
  rfl

theorem drop_escaped (text : String) (rest : List Char) :
    (text.toList.flatMap Json.escapeChar ++ '\x22' :: rest).drop
      ((text.toList.flatMap Json.escapeChar).length + 1) = rest := by
  rw [← List.drop_drop, List.drop_left]
  rfl

theorem Reads.quoteText (text : String) (rest : List Char) :
    Reads (Json.quoteText text ++ rest) (.text (.ok text)) rest := by
  have read := Reads.text (skipSpace_cons rfl) (readText_escaped text rest)
  rwa [drop_escaped, ← quoteText_append] at read

/-- A member is a written name, a colon and a value. -/
theorem ReadsMember.of_quoteText {input rest space : List Char} {name : String} {value : Document}
    (blank : ∀ c ∈ space, isSpace c) (read : Reads input value rest) :
    ReadsMember (space ++ (Json.quoteText name ++ ':' :: input)) (.ok name) value rest := by
  refine ⟨name.toList.flatMap Json.escapeChar ++ '\x22' :: ':' :: input,
    (name.toList.flatMap Json.escapeChar).length + 1, input, ?_, ?_, ?_, read⟩
  · rw [skipSpace_append blank, quoteText_append, skipSpace_cons rfl]
  · rw [readName, readText_escaped]
  · rw [drop_escaped, skipSpace_cons rfl]

end Document
end SqlMetrics
