import SqlMetrics.Proofs.Json.Strings
import SqlMetrics.Proofs.Decimal.Shortest

/-! # Written values are read back

A JSON value that is written with any white space is read as its own document (`reads_write`): the
same values in the same places, every member under its name and in its place, every number as the
numeral of its text.  So the compact text and the text over several lines are both read back
(`read_compact`, `read_pretty`). -/
set_option autoImplicit false
namespace SqlMetrics
namespace Json

/-- The document of a number; what is not finite is null. -/
def numberDocument : JsonNumber → Document
  | .whole value => .number (.ofInt value)
  | .real value =>
      match BinaryParts.ofFloat value with
      | .finite negative mantissa exponent =>
          .number (.ofDecimal .data negative (writtenDecimal mantissa exponent))
      | _ => .null

mutual

def document : Json → Document
  | .null => .null
  | .bool value => .bool value
  | .number value => numberDocument value
  | .text value => .text (.ok value)
  | .array items => .array (itemDocuments items) none
  | .object members => .object (memberDocuments members) none

def itemDocuments : List Json → List Document
  | [] => []
  | item :: rest => item.document :: itemDocuments rest

def memberDocuments : List (String × Json) → List Member
  | [] => []
  | (name, value) :: rest => (.ok name, value.document) :: memberDocuments rest

end

theorem itemDocuments_map {α : Type} (value : α → Json) (items : List α) :
    itemDocuments (items.map value) = items.map fun item => (value item).document := by
  induction items with
  | nil => rfl
  | cons item rest ih => rw [List.map_cons, itemDocuments, ih, List.map_cons]

theorem memberDocuments_eq_map (members : List (String × Json)) :
    memberDocuments members = members.map fun member => (.ok member.1, member.2.document) := by
  induction members with
  | nil => rfl
  | cons member rest ih => rw [memberDocuments, ih, List.map_cons]

end Json

namespace Document

open Json

theorem endsNumber_of_isSpace {c : Char} (blank : isSpace c = true) (rest : List Char) :
    EndsNumber (c :: rest) := by
  intro d first
  obtain rfl : c = d := Option.some.inj first
  simp only [isSpace, Bool.or_eq_true, decide_eq_true_eq] at blank
  rcases blank with ((rfl | rfl) | rfl) | rfl <;> decide

theorem endsNumber_closing {closing : Char} (outside : closing = ']' ∨ closing = '\x7d')
    (rest : List Char) : EndsNumber (closing :: rest) := by
  intro c first
  obtain rfl : closing = c := Option.some.inj first
  rcases outside with rfl | rfl <;> decide

theorem endsNumber_spaced {space rest : List Char} (blank : ∀ c ∈ space, isSpace c = true)
    (ends : EndsNumber rest) : EndsNumber (space ++ rest) := by
  cases space with
  | nil => exact ends
  | cons c others => exact endsNumber_of_isSpace (blank c List.mem_cons_self) (others ++ rest)

theorem endsNumber_comma (rest : List Char) : EndsNumber (',' :: rest) := by
  intro c first
  obtain rfl : ',' = c := Option.some.inj first
  decide

theorem numberDocument_finite {value : Float} (finite : value.isFinite = true) :
    ∃ numeral : Numeral, numberDocument (.real value) = .number numeral ∧
      numberText (.real value) = numeral.text true ∧ numeral.Proper ∧ numeral.Spells value := by
  obtain ⟨negative, mantissa, exponent, parts⟩ := (isFinite_iff_parts value).mp finite
  have written : numberText (.real value) = (FloatStyle.data.render value).toList := by
    rw [numberText, isNaN_or_isInf, finite]
    rfl
  refine ⟨.ofDecimal .data negative (writtenDecimal mantissa exponent), ?_,
    written.trans (text_render parts).symm,
    Numeral.proper_ofDecimal (writtenDecimal_zero (inBinary64_of_ofFloat parts)),
    spells_ofDecimal parts⟩
  rw [numberDocument, parts]

theorem numberDocument_infinite {value : Float} (infinite : value.isFinite = false) :
    numberDocument (.real value) = .null ∧ numberText (.real value) = ['n', 'u', 'l', 'l'] := by
  constructor
  · rw [numberDocument]
    split
    · rename_i negative mantissa exponent parts
      have finite := (isFinite_iff_parts value).mpr ⟨negative, mantissa, exponent, parts⟩
      rw [infinite] at finite
      cases finite
    · rfl
  · rw [numberText, isNaN_or_isInf, infinite]
    rfl

theorem reads_numberText (number : JsonNumber) {rest : List Char} (ends : EndsNumber rest) :
    Reads (numberText number ++ rest) (numberDocument number) rest := by
  cases number with
  | whole value =>
      rw [numberText, ← Numeral.text_ofInt value true]
      exact Reads.numeral (Numeral.proper_ofInt value) ends true
  | real value =>
      cases finite : value.isFinite with
      | true =>
          obtain ⟨numeral, document, text, proper, -⟩ := numberDocument_finite finite
          rw [document, text]
          exact Reads.numeral proper ends true
      | false =>
          obtain ⟨document, text⟩ := numberDocument_infinite finite
          rw [document, text]
          exact Reads.null rfl

theorem isSpace_nothing : ∀ c ∈ ([] : List Char), isSpace c = true :=
  nofun

theorem isSpace_single : ∀ c ∈ [' '], isSpace c = true :=
  List.forall_mem_singleton.mpr rfl

theorem isSpace_newLine (depth : Nat) : ∀ c ∈ newLine depth, isSpace c = true := by
  intro c among
  rcases List.mem_cons.mp among with rfl | spaces
  · rfl
  · rw [List.eq_of_mem_replicate spaces]
    rfl

/-- A reader skips this white space. -/
structure Blank (spacing : Spacing) : Prop where
  line : ∀ depth, ∀ c ∈ spacing.line depth, isSpace c = true
  colon : ∀ c ∈ spacing.colon, isSpace c = true

theorem blank_none : Blank .none :=
  ⟨fun _ => isSpace_nothing, isSpace_nothing⟩

theorem blank_indented : Blank .indented :=
  ⟨isSpace_newLine, isSpace_single⟩

variable {spacing : Spacing}

theorem Blank.skipSpace_line (blank : Blank spacing) (depth : Nat) {c : Char}
    (rest : List Char) (visible : isSpace c = false) :
    skipSpace (spacing.line depth ++ c :: rest) = c :: rest := by
  rw [skipSpace_append (blank.line depth), skipSpace_cons visible]

-- The induction is on the value; what stands behind it may be anything no number goes on with.
mutual

theorem reads_write (blank : Blank spacing) (depth : Nat) : ∀ (json : Json) {rest : List Char},
    EndsNumber rest → Reads (json.write spacing depth ++ rest) json.document rest
  | .null, rest, _ => Reads.null rfl
  | .bool true, rest, _ => Reads.trueWord rfl
  | .bool false, rest, _ => Reads.falseWord rfl
  | .number value, rest, ends => reads_numberText value ends
  | .text value, rest, _ => Reads.quoteText value rest
  | .array [], rest, _ => Reads.array rfl (ReadsItems.nil rfl)
  | .array (item :: items), rest, _ => by
      have read := readsItems_write blank (depth + 1) true depth (item :: items) nofun rest
      simp only [write, List.cons_append, List.append_assoc, List.nil_append]
      exact .array (skipSpace_cons rfl) read
  | .object [], rest, _ => Reads.object rfl (ReadsMembers.nil rfl)
  | .object (member :: members), rest, _ => by
      have read := readsMembers_write blank (depth + 1) true depth (member :: members) nofun rest
      simp only [write, List.cons_append, List.append_assoc, List.nil_append]
      exact .object (skipSpace_cons rfl) read

theorem readsItems_write (blank : Blank spacing) (depth : Nat) (first : Bool) (outer : Nat) :
    ∀ (items : List Json), items ≠ [] → ∀ (rest : List Char),
    ReadsItems first (writeItems spacing depth items ++ (spacing.line outer ++ ']' :: rest))
      (itemDocuments items) rest
  | [], filled, _ => absurd rfl filled
  | [item], _, rest => by
      have read := reads_write blank depth item
        (endsNumber_spaced (blank.line outer) (endsNumber_closing (.inl rfl) rest))
      simp only [writeItems, List.append_assoc]
      exact .last (.spaced (blank.line depth) read) (blank.skipSpace_line outer rest rfl)
  | item :: next :: more, _, rest => by
      have later := readsItems_write blank depth false outer (next :: more) nofun rest
      have read := reads_write blank depth item (endsNumber_comma
        (writeItems spacing depth (next :: more) ++ (spacing.line outer ++ ']' :: rest)))
      simp only [writeItems, List.append_assoc, List.cons_append]
      exact .cons (.spaced (blank.line depth) read) (skipSpace_cons rfl) later

theorem readsMembers_write (blank : Blank spacing) (depth : Nat) (first : Bool) (outer : Nat) :
    ∀ (members : List (String × Json)), members ≠ [] → ∀ (rest : List Char),
    ReadsMembers first
      (writeMembers spacing depth members ++ (spacing.line outer ++ '\x7d' :: rest))
      (memberDocuments members) rest
  | [], filled, _ => absurd rfl filled
  | [(name, value)], _, rest => by
      have read := reads_write blank depth value
        (endsNumber_spaced (blank.line outer) (endsNumber_closing (.inr rfl) rest))
      simp only [writeMembers, List.append_assoc, List.cons_append]
      exact .last (.of_quoteText (blank.line depth) (.spaced blank.colon read))
        (blank.skipSpace_line outer rest rfl)
  | (name, value) :: next :: more, _, rest => by
      have later := readsMembers_write blank depth false outer (next :: more) nofun rest
      have read := reads_write blank depth value (endsNumber_comma
        (writeMembers spacing depth (next :: more) ++ (spacing.line outer ++ '\x7d' :: rest)))
      simp only [writeMembers, List.append_assoc, List.cons_append]
      exact .cons (.of_quoteText (blank.line depth) (.spaced blank.colon read))
        (skipSpace_cons rfl) later

end

theorem read_write (blank : Blank spacing) (depth : Nat) (json : Json) :
    read (String.ofList (json.write spacing depth)) = (json.document, false) := by
  have whole := reads_write blank depth json (show EndsNumber [] from nofun)
  rw [List.append_nil] at whole
  exact read_of_reads (by rwa [String.toList_ofList])

theorem read_compact (json : Json) :
    read (String.ofList json.compact) = (json.document, false) :=
  read_write blank_none 0 json

theorem read_pretty (json : Json) :
    read (String.ofList (json.pretty 0)) = (json.document, false) :=
  read_write blank_indented 0 json

end Document
end SqlMetrics
