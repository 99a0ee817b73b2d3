/-
# The least free suffix

The search for the name of a style sheet tries the candidate, then the candidate with 1 behind it, then with
2, and so on, and ends with the first name that is free.  Nothing in the search bounds it.  It ends because
the names that it tries differ, so each step uses up one of the names that are taken; and what it ends with
does not depend on how these lie, be they reserved, or candidates of other sheets that happen to end in a
number.
-/
import ComponentLowering.Proofs.StyleLedger
import Mathlib.Data.Finset.Card

namespace ComponentLowering.Style

open ComponentLowering.Lowering

variable {taken : List String} {base name : String} {n : Nat}

/-! ### The search step by step -/

/-- A name with a number behind it. -/
def suffixed (base : String) (k : Nat) : String := base ++ "_" ++ toString k

/-- Where a search stands: the name to try, and the number behind the name to try after it. -/
structure Attempt where
  name : String
  next : Nat

/-- Whether a search ends after a number of steps, and with which name.  A step gives up a name that is
taken. -/
inductive EndsAfter (taken : List String) (base : String) : Attempt → Nat → String → Prop
  | free {a : Attempt} (free : a.name ∉ taken) : EndsAfter taken base a 0 a.name
  | step {a : Attempt} {n : Nat} {name : String} (occupied : a.name ∈ taken)
      (later : EndsAfter taken base ⟨suffixed base a.next, a.next + 1⟩ n name) :
      EndsAfter taken base a (n + 1) name

@[simp]
theorem numbered_zero (base : String) : numbered base 0 = base := rfl

@[simp]
theorem numbered_succ (base : String) (k : Nat) : numbered base (k + 1) = suffixed base (k + 1) := by
  rw [numbered, suffixed, Nat.toString_eq_ofList_toDigits]

/-- A search ends with the first name that is free, and each name in front of it takes one step. -/
theorem endsAfter_iff (i : Nat) :
    EndsAfter taken base ⟨numbered base i, i + 1⟩ n name ↔
      name = numbered base (i + n) ∧ numbered base (i + n) ∉ taken ∧
        ∀ j < n, numbered base (i + j) ∈ taken := by
  induction n generalizing i with
  | zero =>
      constructor
      · rintro ⟨free⟩
        exact ⟨rfl, free, fun j less => absurd less (Nat.not_lt_zero j)⟩
      · rintro ⟨rfl, free, -⟩
        exact .free free
  | succ n ih =>
      have shift (j : Nat) : i + 1 + j = i + (j + 1) := Nat.add_right_comm i 1 j
      have next := ih (i + 1)
      simp only [numbered_succ, shift] at next
      constructor
      · rintro (_ | ⟨occupied, later⟩)
        obtain ⟨eq, free, before⟩ := next.mp later
        refine ⟨eq, free, fun j less => ?_⟩
        cases j with
        | zero => exact occupied
        | succ j => exact before j (Nat.lt_of_succ_lt_succ less)
      · rintro ⟨eq, free, before⟩
        apply EndsAfter.step (before 0 (Nat.succ_pos n))
        exact next.mpr ⟨eq, free, fun j less => before (j + 1) (Nat.succ_lt_succ less)⟩

/-! ### The number of steps -/

/-- Different names that are all taken are no more than there are taken names. -/
theorem le_card_of_forall_mem {f : Nat → String} (injective : Function.Injective f)
    (all : ∀ j < n, f j ∈ taken) : n ≤ taken.toFinset.card := by
  calc
    n = (Finset.range n).card := (Finset.card_range n).symm
    _ ≤ taken.toFinset.card := by
      apply Finset.card_le_card_of_injOn f
      · intro j mem
        exact List.mem_toFinset.mpr (all j (Finset.mem_range.mp mem))
      · exact injective.injOn

/-- A fresh name is the first one that is free. -/
theorem exists_freshName_eq (taken : List String) (base : String) :
    ∃ n, freshName taken base = numbered base n ∧ numbered base n ∉ taken ∧
      ∀ j < n, numbered base j ∈ taken := by
  obtain ⟨m, inRange, free⟩ := exists_numbered_not_mem taken base
  have found : ((List.range (taken.length + 1)).find? fun n =>
      !taken.contains (numbered base n)).isSome :=
    List.find?_isSome.mpr ⟨m, inRange, by simpa using free⟩
  obtain ⟨n, first⟩ := Option.isSome_iff_exists.mp found
  refine ⟨n, by rw [freshName, first, Option.getD_some], ?_⟩
  obtain ⟨free, -, before⟩ := List.find?_range_eq_some.mp first
  exact ⟨by simpa using free, fun j less => by simpa using before j less⟩

/-! ### The name that is found -/

/-- Whether a name is what a base becomes: the base itself if it is free, or else the base with the least
number from 1 on behind it that makes it free. -/
inductive IsLeastFree (taken : List String) (base : String) : String → Prop
  | base (free : base ∉ taken) : IsLeastFree taken base base
  | suffixed {k : Nat} (occupied : base ∈ taken) (positive : 1 ≤ k) (free : suffixed base k ∉ taken)
      (least : ∀ j, 1 ≤ j → j < k → suffixed base j ∈ taken) :
      IsLeastFree taken base (suffixed base k)

theorem isLeastFree_numbered (free : numbered base n ∉ taken)
    (before : ∀ j < n, numbered base j ∈ taken) : IsLeastFree taken base (numbered base n) := by
  cases n with
  | zero => exact .base free
  | succ k =>
      rw [numbered_succ] at free ⊢
      refine .suffixed (before 0 (Nat.succ_pos k)) (Nat.le_add_left 1 k) free fun j positive less => ?_
      obtain ⟨i, rfl⟩ := Nat.exists_eq_add_of_le' positive
      simpa only [numbered_succ] using before (i + 1) less

/-- What the search for the name of a new style sheet comes to, between two ledgers. -/
structure FindsName (l l' : Ledger) (base name : String) : Prop where
  /-- It ends, after at most as many steps as there are taken names. -/
  ends : ∃ n ≤ l.taken.toFinset.card, EndsAfter l.taken base ⟨base, 1⟩ n name
  /-- The name that is found is the first one that is free. -/
  least : IsLeastFree l.taken base name
  /-- That name was free. -/
  free : name ∉ l.taken.toFinset
  /-- That name is taken now, and no other one is that was free. -/
  grows : l'.taken.toFinset = insert name l.taken.toFinset

/-- A sheet for a new place gets the first free name. -/
theorem Ledger.findsName_hoist (l : Ledger) {className path : String} (key : Option String)
    (new : ∀ s ∈ l.sheets, ¬ (s.owner = className ∧ s.path = path)) :
    ∃ name, (l.hoist className key path).1 = ⟨name, true⟩ ∧
      FindsName l (l.hoist className key path).2 (candidate className key path) name := by
  obtain ⟨n, eq, free, before⟩ := exists_freshName_eq l.taken (candidate className key path)
  rw [l.hoist_eq_of_new key new, eq]
  refine ⟨numbered (candidate className key path) n, rfl, ?_⟩
  have steps : n ≤ l.taken.toFinset.card :=
    le_card_of_forall_mem (numbered_injective (candidate className key path)) before
  exact {
    ends := ⟨n, steps, (endsAfter_iff 0).mpr (by simpa using ⟨free, before⟩)⟩
    least := isLeastFree_numbered free before
    free := mt List.mem_toFinset.mp free
    grows := List.toFinset_cons }

end ComponentLowering.Style

namespace ComponentLowering.Lowering.StateCall

open ComponentLowering.Style

/-! ### Runs -/

/-- The names that are taken behind some calls are those that were reserved and those of the sheets. -/
theorem mem_taken_run_iff {calls : List StateCall} {name : String} :
    name ∈ (run calls).styles.taken ↔
      reserve name ∈ calls ∨ ∃ s ∈ (run calls).styles.sheets, s.name = name := by
  induction calls using List.reverseRecOn with
  | nil => simp [run, applyAll]
  | append_singleton calls call ih =>
      have last : run (calls ++ [call]) = call.apply (run calls) := run_append calls [call]
      rw [last, List.mem_append, List.mem_singleton]
      cases call with
      | reserve other =>
          simp only [apply, ModuleState.reserve, Ledger.reserve, List.mem_cons, ih, reserve.injEq]
          tauto
      | hoist className key path =>
          rw [apply, ModuleState.hoist_eq]
          obtain ⟨_, _, _, _, eq⟩ | ⟨made, _, _, eq⟩ :=
            (sound_run calls).hoist_cases className key path
          · simp [eq, ih]
          · simp only [eq, List.mem_cons, List.mem_append, List.not_mem_nil, ih, or_and_right, exists_or,
              exists_eq_left, reduceCtorEq, or_false, @eq_comm _ made]
            rw [or_comm, or_assoc]
      | useCore f => simp [apply, ih]
      | moveComments source target => simp [apply, ih]

/-- Behind any calls, the search for the name of a sheet that is not known yet ends, with the first name that
is neither reserved nor the name of another sheet, and takes this name and no other. -/
theorem run_findsName (calls : List StateCall) (className : String) (key : Option String) (path : String)
    (new : ∀ s ∈ (run calls).styles.sheets, ¬ (s.owner = className ∧ s.path = path)) :
    (∀ name, name ∈ (run calls).styles.taken ↔
      reserve name ∈ calls ∨ ∃ s ∈ (run calls).styles.sheets, s.name = name) ∧
    ∃ name, ((run calls).hoist className key path).1 = ⟨name, true⟩ ∧
      FindsName (run calls).styles ((run calls).hoist className key path).2.styles
        (candidate className key path) name := by
  refine ⟨fun name => mem_taken_run_iff, ?_⟩
  rw [ModuleState.hoist_eq]
  exact (run calls).styles.findsName_hoist key new

/-- Calls that leave a hole: the candidate of the sheet `a.css` and its numbers 1, 2 and 4 are taken, the
second of these as the candidate of another sheet. -/
def crowded : List StateCall :=
  [reserve "CMP_A__a_css", reserve "CMP_A__a_css_1", hoist "CmpA" none "./a.css_2",
    reserve "CMP_A__a_css_4"]

/-- The hole is found. -/
theorem crowded_findsName :
    (∀ s ∈ (run crowded).styles.sheets, ¬ (s.owner = "CmpA" ∧ s.path = "./a.css")) ∧
    ((run crowded).hoist "CmpA" none "./a.css").1 = ⟨"CMP_A__a_css_3", true⟩ ∧
    FindsName (run crowded).styles ((run crowded).hoist "CmpA" none "./a.css").2.styles
      "CMP_A__a_css" "CMP_A__a_css_3" := by
  have new : ∀ s ∈ (run crowded).styles.sheets, ¬ (s.owner = "CmpA" ∧ s.path = "./a.css") := by
    decide +kernel
  have found : ((run crowded).hoist "CmpA" none "./a.css").1 = ⟨"CMP_A__a_css_3", true⟩ := by
    decide +kernel
  have base : candidate "CmpA" none "./a.css" = "CMP_A__a_css" := by decide +kernel
  obtain ⟨-, name, eq, finds⟩ := run_findsName crowded "CmpA" none "./a.css" new
  obtain rfl : "CMP_A__a_css_3" = name := congrArg Hoisted.name (found.symm.trans eq)
  exact ⟨new, found, base ▸ finds⟩

end ComponentLowering.Lowering.StateCall
