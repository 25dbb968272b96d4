import SqlMetrics.Assessment
import SqlMetrics.Proofs.Acceptance

/-! # Batches

Every query of a batch is assessed as if it stood alone (`assessAll_independent`): what was found
out is listed in the order of the queries, what was skipped under the numbers of the queries, and a
batch that is divided among several workers comes out as if one had done it all. -/
set_option autoImplicit false
namespace SqlMetrics

namespace Skipped

/-- A skipped query that has `count` more queries before it. -/
def behind (count : Nat) (query : Skipped) : Skipped :=
  { query with index := count + query.index }

end Skipped

namespace Batch

def followedBy (batch : Batch) (count : Nat) (other : Batch) : Batch where
  assessed := batch.assessed ++ other.assessed
  skipped := batch.skipped ++ other.skipped.map (Skipped.behind count)

end Batch

/-- How queries are handed out: one worker takes them all, or each part is divided further. -/
inductive Division where
  | worker (queries : List String)
  | parts (front behind : Division)

def Division.queries : Division → List String
  | worker queries => queries
  | parts front behind => front.queries ++ behind.queries

namespace Profile

/-- The batch that workers put together. -/
def assessDivided (profile : Profile) : Division → Batch
  | .worker queries => profile.assessAll queries
  | .parts front behind =>
      (profile.assessDivided front).followedBy front.queries.length (profile.assessDivided behind)

variable (profile : Profile)

section Records
variable (index : Nat) (outcome : Except ParseError Assessment) (others : Batch)

theorem assessed_record :
    (record index outcome others).assessed = outcome.toOption.toList ++ others.assessed := by
  cases outcome <;> rfl

theorem length_record :
    (record index outcome others).assessed.length + (record index outcome others).skipped.length =
      others.assessed.length + others.skipped.length + 1 := by
  cases outcome with
  | ok assessment => simp only [record, List.length_cons]; omega
  | error error => simp only [record, List.length_cons]; omega

theorem mem_skipped_record (query : Skipped) :
    query ∈ (record index outcome others).skipped ↔
      query.index = index ∧ outcome = .error query.error ∨ query ∈ others.skipped := by
  cases outcome with
  | ok assessment => simp [record]
  | error error =>
      have same : query = ⟨index, error⟩ ↔ query.index = index ∧ error = query.error := by
        cases query
        simp [eq_comm]
      simp [record, same]

theorem record_followedBy (other : Batch) (count : Nat) :
    record index outcome (others.followedBy count other) =
      (record index outcome others).followedBy count other := by
  cases outcome <;> rfl

end Records

/-! ## One query after the other -/

theorem assessed_assessFrom (index : Nat) (queries : List String) :
    (profile.assessFrom index queries).assessed =
      queries.filterMap fun query => (profile.assess query).toOption := by
  induction queries generalizing index with
  | nil => rfl
  | cons query rest ih =>
      rw [assessFrom, assessed_record, ih]
      cases outcome : profile.assess query <;> simp [outcome, Except.toOption]

theorem mem_skipped_assessFrom (index : Nat) (queries : List String) (query : Skipped) :
    query ∈ (profile.assessFrom index queries).skipped ↔
      ∃ place text, query.index = index + place ∧ queries[place]? = some text ∧
        profile.assess text = .error query.error := by
  induction queries generalizing index with
  | nil => simp [assessFrom]
  | cons first rest ih =>
      rw [assessFrom, mem_skipped_record, ih]
      constructor
      · rintro (⟨here, failed⟩ | ⟨place, text, later, found, failed⟩)
        · exact ⟨0, first, here, rfl, failed⟩
        · exact ⟨place + 1, text, by omega, by simpa using found, failed⟩
      · rintro ⟨place, text, there, found, failed⟩
        cases place with
        | zero =>
            obtain rfl : first = text := by simpa using found
            exact .inl ⟨there, failed⟩
        | succ place => exact .inr ⟨place, text, by omega, by simpa using found, failed⟩

theorem index_of_mem_skipped {index : Nat} {queries : List String} {query : Skipped}
    (skipped : query ∈ (profile.assessFrom index queries).skipped) : index ≤ query.index := by
  obtain ⟨place, _, there, _⟩ := (profile.mem_skipped_assessFrom index queries query).mp skipped
  omega

theorem pairwise_skipped_assessFrom (index : Nat) (queries : List String) :
    ((profile.assessFrom index queries).skipped.map Skipped.index).Pairwise (· < ·) := by
  induction queries generalizing index with
  | nil => exact List.Pairwise.nil
  | cons query rest ih =>
      rw [assessFrom]
      cases profile.assess query with
      | ok assessment => exact ih (index + 1)
      | error error =>
          simp only [record, List.map_cons, List.pairwise_cons]
          refine ⟨?_, ih (index + 1)⟩
          intro later among
          obtain ⟨query, skipped, rfl⟩ := List.mem_map.mp among
          exact profile.index_of_mem_skipped skipped

theorem length_assessFrom (index : Nat) (queries : List String) :
    (profile.assessFrom index queries).assessed.length +
      (profile.assessFrom index queries).skipped.length = queries.length := by
  induction queries generalizing index with
  | nil => rfl
  | cons query rest ih => rw [assessFrom, length_record, ih, List.length_cons]

/-! ## Batches behind each other -/

theorem assessFrom_eq_behind (index : Nat) (queries : List String) :
    profile.assessFrom index queries =
      ({} : Batch).followedBy index (profile.assessAll queries) := by
  have shifted (inner : Nat) : ∀ outer, profile.assessFrom (outer + inner) queries =
      ({} : Batch).followedBy outer (profile.assessFrom inner queries) := by
    induction queries generalizing inner with
    | nil => intro outer; rfl
    | cons query rest ih =>
        intro outer
        rw [assessFrom, assessFrom, Nat.add_assoc, ih (inner + 1) outer]
        cases profile.assess query <;> rfl
  exact shifted 0 index

theorem assessFrom_append (index : Nat) (front queries : List String) :
    profile.assessFrom index (front ++ queries) =
      (profile.assessFrom index front).followedBy (index + front.length)
        (profile.assessAll queries) := by
  induction front generalizing index with
  | nil => exact profile.assessFrom_eq_behind index queries
  | cons query rest ih =>
      have place : index + 1 + rest.length = index + (query :: rest).length := by
        simp only [List.length_cons]; omega
      rw [List.cons_append, assessFrom, assessFrom, ih, record_followedBy, place]

theorem assessAll_append (front queries : List String) :
    profile.assessAll (front ++ queries) =
      (profile.assessAll front).followedBy front.length (profile.assessAll queries) := by
  simp only [assessAll, profile.assessFrom_append 0, Nat.zero_add]

theorem assessDivided_eq (division : Division) :
    profile.assessDivided division = profile.assessAll division.queries := by
  induction division with
  | worker queries => rfl
  | parts front behind front_ih behind_ih =>
      rw [assessDivided, front_ih, behind_ih, Division.queries, assessAll_append]

end Profile

/-- The assessments of a batch are those of its queries that can be parsed, in their order; the
others are skipped, each with its own number and fault.  Two batches can be put together from the
batches of their queries, so however the queries are divided among workers, the batch is the same;
and a query that cannot be parsed takes nothing away from the others. -/
theorem assessAll_independent (profile : Profile) (queries : List String) :
    (profile.assessAll queries).assessed =
      queries.filterMap (fun query => (profile.assess query).toOption) ∧
    (∀ index error, ⟨index, error⟩ ∈ (profile.assessAll queries).skipped ↔
      ∃ query, queries[index]? = some query ∧ profile.assess query = .error error) ∧
    ((profile.assessAll queries).skipped.map Skipped.index).Pairwise (· < ·) ∧
    (profile.assessAll queries).assessed.length + (profile.assessAll queries).skipped.length =
      queries.length ∧
    (∀ others,
      (profile.assessAll (queries ++ others)).assessed =
        (profile.assessAll queries).assessed ++ (profile.assessAll others).assessed ∧
      (profile.assessAll (queries ++ others)).skipped =
        (profile.assessAll queries).skipped ++ (profile.assessAll others).skipped.map
          fun query => ⟨queries.length + query.index, query.error⟩) ∧
    (∀ division : Division, division.queries = queries →
      profile.assessDivided division = profile.assessAll queries) ∧
    ∀ front behind query error, queries = front ++ behind → profile.assess query = .error error →
      (profile.assessAll (front ++ query :: behind)).assessed =
        (profile.assessAll queries).assessed := by
  refine ⟨profile.assessed_assessFrom 0 queries, ?_, profile.pairwise_skipped_assessFrom 0 queries,
    profile.length_assessFrom 0 queries, ?_, ?_, ?_⟩
  · intro index error
    rw [Profile.assessAll, profile.mem_skipped_assessFrom]
    constructor
    · rintro ⟨place, query, there, found, failed⟩
      obtain rfl : index = place := by simpa using there
      exact ⟨query, found, failed⟩
    · rintro ⟨query, found, failed⟩
      exact ⟨index, query, by simp, found, failed⟩
  · intro others
    rw [profile.assessAll_append]
    exact ⟨rfl, rfl⟩
  · rintro division rfl
    exact profile.assessDivided_eq division
  · rintro front behind query error rfl failed
    simp only [Profile.assessAll, profile.assessed_assessFrom, List.filterMap_append]
    rw [List.filterMap_cons_none (by rw [failed]; rfl)]

theorem assess_blank (profile : Profile) (dialect : profile.dialect = .generic) :
    profile.assess " " = .error .empty := by
  have blank : scanToken .generic none ' ' [] = .ok ⟨.blank, 1⟩ := rfl
  have behind : scanTokens .generic (some .blank) [] = .ok [] := by rw [scanTokens]
  have scanned : Token.scan .generic " " = .ok [.blank] := by
    have text : " ".toList = [' '] := rfl
    simp only [Token.scan, text, scanTokens, blank, List.drop_nil, behind]
  rw [Profile.assess, dialect, Statement.parse_of_scan scanned,
    Statement.ofTokens_eq_empty_iff.mpr (by decide)]
  rfl

/-- Of five texts, divided between two workers, the third and the last are skipped. -/
theorem independent_of_blank_texts :
    ∃ profile, Profile.ofName? "generic" {} = some profile ∧
      profile.assessAll ["*", "*", " ", "*", ";"] = profile.assessDivided
        (.parts (.worker ["*"]) (.worker ["*", " ", "*", ";"])) ∧
      (profile.assessAll ["*", " ", "*", ";"]).assessed =
        (profile.assessAll ["*", "*", ";"]).assessed ∧
      ⟨2, .empty⟩ ∈ (profile.assessAll ["*", "*", " ", "*", ";"]).skipped := by
  refine ⟨⟨"generic", .generic, {}, rfl⟩, rfl, ?_, ?_, ?_⟩
  · obtain ⟨-, -, -, -, -, divided, -⟩ := assessAll_independent ⟨"generic", .generic, {}, rfl⟩
      ["*", "*", " ", "*", ";"]
    exact (divided _ rfl).symm
  · obtain ⟨-, -, -, -, -, -, inserted⟩ := assessAll_independent ⟨"generic", .generic, {}, rfl⟩
      ["*", "*", ";"]
    exact inserted ["*"] ["*", ";"] " " .empty rfl (assess_blank _ rfl)
  · obtain ⟨-, skipped, -⟩ := assessAll_independent ⟨"generic", .generic, {}, rfl⟩
      ["*", "*", " ", "*", ";"]
    exact (skipped 2 .empty).mpr ⟨" ", rfl, assess_blank _ rfl⟩

end SqlMetrics
