/-
# The last value of a key

A key that is set several times keeps the position at which it was first set, but only its last value
can be looked up.  So what is looked up after setting pairs one by one can be told from the pairs as they
are written, from their end.
-/
import ComponentLowering.Style.Refs
import Mathlib.Data.List.Induction
import Mathlib.Data.List.Nodup

namespace ComponentLowering.Style

variable {α : Type} {pairs : List (String × α)} {key other : String} {value : α}

/-! ### Pairs as written -/

/-- Whether a value is the last one that is written for a key. -/
def IsLast (pairs : List (String × α)) (key : String) (value : α) : Prop :=
  ∃ before after, pairs = before ++ (key, value) :: after ∧ key ∉ after.map (·.1)

theorem IsLast.mem (h : IsLast pairs key value) : (key, value) ∈ pairs := by
  obtain ⟨before, after, rfl, -⟩ := h
  simp

theorem isLast_concat_self : IsLast (pairs ++ [(key, value)]) key value :=
  ⟨pairs, [], rfl, List.not_mem_nil⟩

/-- A pair behind all others is the last one for its key and says nothing about other keys. -/
theorem isLast_concat_iff {last : α} :
    IsLast (pairs ++ [(other, last)]) key value ↔
      if other = key then last = value else IsLast pairs key value := by
  constructor
  · rintro ⟨before, after, eq, none⟩
    obtain rfl | ⟨front, p, rfl⟩ := List.eq_nil_or_concat after
    · obtain ⟨-, ends⟩ := List.append_inj' eq rfl
      cases ends
      rw [if_pos rfl]
    · rw [List.concat_eq_append] at eq none
      rw [← List.cons_append, ← List.append_assoc] at eq
      obtain ⟨rfl, ends⟩ := List.append_inj' eq rfl
      cases ends
      rw [List.map_append, List.mem_append, not_or] at none
      rw [if_neg fun same => none.2 (by simp [same])]
      exact ⟨before, front, rfl, none.1⟩
  · split
    · rename_i same
      subst same
      rintro rfl
      exact isLast_concat_self
    · rename_i differs
      rintro ⟨before, after, rfl, none⟩
      refine ⟨before, after ++ [(other, last)], by simp, ?_⟩
      rw [List.map_append, List.mem_append, not_or]
      exact ⟨none, by simpa using Ne.symm differs⟩

/-- A key that is written has a last value. -/
theorem exists_isLast (h : key ∈ pairs.map (·.1)) : ∃ value, IsLast pairs key value := by
  induction pairs using List.reverseRecOn with
  | nil => cases h
  | append_singleton pairs p ih =>
      obtain ⟨other, last⟩ := p
      simp only [isLast_concat_iff]
      split
      · exact ⟨last, rfl⟩
      · rename_i differs
        refine ih ?_
        rw [List.map_append, List.mem_append] at h
        exact h.resolve_right (by simpa using Ne.symm differs)

theorem IsLast.unique {value' : α} (h : IsLast pairs key value) (h' : IsLast pairs key value') :
    value = value' := by
  induction pairs using List.reverseRecOn with
  | nil =>
      cases h.mem
  | append_singleton pairs p ih =>
      obtain ⟨other, last⟩ := p
      rw [isLast_concat_iff] at h h'
      split at h
      · rename_i same
        rw [if_pos same] at h'
        exact h.symm.trans h'
      · rename_i differs
        rw [if_neg differs] at h'
        exact ih h h'

/-! ### Pairs that are set -/

theorem lookup_cons (p : String × α) :
    lookup key (p :: pairs) = if p.1 = key then some p.2 else lookup key pairs := by
  obtain ⟨k, v⟩ := p
  simp [lookup]

theorem lookup_eq_none_iff : lookup key pairs = none ↔ key ∉ pairs.map (·.1) := by
  induction pairs with
  | nil => simp [lookup]
  | cons p rest ih =>
      rw [lookup_cons]
      split
      · rename_i same
        simp [same]
      · rename_i differs
        rw [ih, List.map_cons, List.mem_cons, not_or]
        exact (and_iff_right (Ne.symm differs)).symm

/-- Looking up finds the value of the only pair with a key. -/
theorem mem_iff_lookup_eq_some (nodup : (pairs.map (·.1)).Nodup) :
    (key, value) ∈ pairs ↔ lookup key pairs = some value := by
  induction pairs with
  | nil => simp [lookup]
  | cons p rest ih =>
      obtain ⟨other, first⟩ := p
      rw [List.map_cons, List.nodup_cons] at nodup
      rw [List.mem_cons, ih nodup.2, lookup_cons]
      dsimp only
      split
      · rename_i same
        subst same
        have none : lookup other rest = none := lookup_eq_none_iff.mpr nodup.1
        simp [none, eq_comm]
      · rename_i differs
        simp [Ne.symm differs]

/-- Setting a pair changes what is looked up for its key only. -/
theorem lookup_setPair :
    lookup other (setPair pairs key value) = if key = other then some value else lookup other pairs := by
  induction pairs with
  | nil => simp [setPair, lookup_cons]
  | cons p rest ih =>
      obtain ⟨k, v⟩ := p
      by_cases same : k = key
      · subst same
        simp only [setPair, beq_self_eq_true, ↓reduceIte, lookup_cons]
        split <;> rfl
      · simp only [setPair, beq_eq_false_iff_ne.mpr same, Bool.false_eq_true, ↓reduceIte, lookup_cons,
          ih]
        split
        · rename_i found
          rw [if_neg fun again => same (found.trans again.symm)]
        · rfl

/-- A key that is set stands once, where it stood or at the end. -/
theorem keys_setPair :
    (setPair pairs key value).map (·.1) =
      if key ∈ pairs.map (·.1) then pairs.map (·.1) else pairs.map (·.1) ++ [key] := by
  induction pairs with
  | nil => rfl
  | cons p rest ih =>
      obtain ⟨k, v⟩ := p
      by_cases same : k = key
      · simp [setPair, same]
      · simp only [setPair, beq_eq_false_iff_ne.mpr same, Bool.false_eq_true, ↓reduceIte, List.map_cons,
          ih, List.mem_cons, Ne.symm same, false_or, List.cons_append]
        split <;> rfl

theorem ofPairs_concat (p : String × α) :
    ofPairs (pairs ++ [p]) = setPair (ofPairs pairs) p.1 p.2 := by
  simp [ofPairs, List.foldl_append]

theorem nodup_ofPairs : ((ofPairs pairs).map (·.1)).Nodup := by
  induction pairs using List.reverseRecOn with
  | nil => exact List.nodup_nil
  | append_singleton pairs p ih =>
      rw [ofPairs_concat, keys_setPair]
      split
      · exact ih
      · rename_i new
        exact List.nodup_append.mpr ⟨ih, List.nodup_singleton _, by
          rintro k mem _ (_ | ⟨_, ⟨⟩⟩) rfl
          exact new mem⟩

/-- What is looked up after setting pairs one by one is the last value that is written. -/
theorem lookup_ofPairs_eq_some_iff :
    lookup key (ofPairs pairs) = some value ↔ IsLast pairs key value := by
  induction pairs using List.reverseRecOn with
  | nil =>
      simp only [ofPairs, List.foldl_nil, lookup, reduceCtorEq, false_iff]
      intro h
      cases h.mem
  | append_singleton pairs p ih =>
      obtain ⟨other, last⟩ := p
      rw [ofPairs_concat, lookup_setPair, isLast_concat_iff]
      split
      · exact Option.some_inj
      · exact ih

theorem lookup_ofPairs_eq_none_iff : lookup key (ofPairs pairs) = none ↔ key ∉ pairs.map (·.1) := by
  rw [Option.eq_none_iff_forall_ne_some]
  constructor
  · intro none mem
    obtain ⟨value, last⟩ := exists_isLast mem
    exact none value (lookup_ofPairs_eq_some_iff.mpr last)
  · intro none value found
    exact none (List.mem_map_of_mem (lookup_ofPairs_eq_some_iff.mp found).mem)

end ComponentLowering.Style
