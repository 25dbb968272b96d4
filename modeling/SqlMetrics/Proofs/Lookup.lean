import Mathlib.Tactic.SplitIfs

/-! # Looking up keys

Lists of keys with values, in which the first entry of a key counts, lists of things with different
names, and states in which keys are set one after the other. -/
set_option autoImplicit false
namespace SqlMetrics

section Lookup
variable {α β : Type} [DecidableEq α] [BEq α] [LawfulBEq α] {key : α} {entry : α × β}
  {entries : List (α × β)}

theorem lookup_cons_eq :
    (entry :: entries).lookup key = if key = entry.1 then some entry.2 else entries.lookup key := by
  rw [List.lookup_cons]
  by_cases here : key = entry.1
  · rw [if_pos here, beq_iff_eq.mpr here]
  · rw [if_neg here, beq_eq_false_iff_ne.mpr here]

theorem lookup_filter_ne {other : α} (apart : key ≠ other) :
    (entries.filter fun held => held.1 != other).lookup key = entries.lookup key := by
  induction entries with
  | nil => rfl
  | cons held rest ih =>
      rw [List.filter_cons]
      split_ifs with here
      · rw [lookup_cons_eq, lookup_cons_eq, ih]
      · have same : held.1 = other := by simpa using here
        rw [lookup_cons_eq, if_neg (same ▸ apart), ih]

end Lookup

section Names
variable {α : Type} {things : List α} {name : α → String} {thing : α}

/-- Among things with different names each is found by its own. -/
theorem find?_name (distinct : (things.map name).Nodup) (among : thing ∈ things) :
    things.find? (fun other => decide (name other = name thing)) = some thing := by
  induction things with
  | nil => cases among
  | cons first rest ih =>
      obtain ⟨fresh, later⟩ := List.nodup_cons.mp distinct
      rcases List.mem_cons.mp among with rfl | among
      · exact List.find?_cons_of_pos (decide_eq_true rfl)
      · have other : name first ≠ name thing := fun same =>
          fresh (same ▸ List.mem_map_of_mem among)
        rw [List.find?_cons_of_neg (by simpa using other)]
        exact ih later among

end Names

section Setting
variable {α β σ : Type} [DecidableEq α] (get : σ → α → β) (set : σ → α → β → σ)
  {changes : List (α × β)} {state : σ} {key : α} {value : β}

/-- Keys that are not set keep their values, if each change sets its key and no other. -/
theorem get_foldl_set_of_not_mem
    (sets : ∀ change ∈ changes, ∀ state other, get (set state change.1 change.2) other =
      if other = change.1 then change.2 else get state other)
    (absent : key ∉ changes.map Prod.fst) :
    get (changes.foldl (fun state change => set state change.1 change.2) state) key =
      get state key := by
  induction changes generalizing state with
  | nil => rfl
  | cons change rest ih =>
      obtain ⟨other, later⟩ := not_or.mp (mt List.mem_cons.mpr absent)
      obtain ⟨here, behind⟩ := List.forall_mem_cons.mp sets
      rw [List.foldl_cons, ih behind later, here, if_neg other]

/-- A key that is set once has its value then. -/
theorem get_foldl_set_of_mem
    (sets : ∀ change ∈ changes, ∀ state other, get (set state change.1 change.2) other =
      if other = change.1 then change.2 else get state other)
    (distinct : (changes.map Prod.fst).Nodup) (among : (key, value) ∈ changes) :
    get (changes.foldl (fun state change => set state change.1 change.2) state) key = value := by
  induction changes generalizing state with
  | nil => cases among
  | cons change rest ih =>
      obtain ⟨fresh, others⟩ := List.nodup_cons.mp distinct
      obtain ⟨here, behind⟩ := List.forall_mem_cons.mp sets
      rw [List.foldl_cons]
      rcases List.mem_cons.mp among with rfl | among
      · rw [get_foldl_set_of_not_mem get set behind fresh, here, if_pos rfl]
      · exact ih behind others among

end Setting

end SqlMetrics
