/-
# Sorted paths

Paths are ordered part by part, and two texts are neither before nor behind each other exactly if they name
the same path.  So the files of a run, which are sorted and of which repeated ones are left out, come in
strictly increasing order.
-/
import ComponentLowering.Batch.Inputs

namespace ComponentLowering.Batch

/-! ### The order of paths -/

theorem PathPart.compare_eq :
    PathPart.compare = compareLex (compareOn PathPart.rank) (compareOn PathPart.text) := by
  funext a b
  rw [PathPart.compare, compareLex, compareOn, compareOn, List.compare_eq_compareLex]

instance : Std.TransCmp PathPart.compare := by
  rw [PathPart.compare_eq]
  infer_instance

instance : Std.LawfulEqCmp PathPart.compare where
  eq_of_compare := by
    intro a b same
    unfold PathPart.compare at same
    obtain ⟨rank, text⟩ := Ordering.then_eq_eq.mp same
    have rank := Std.LawfulEqCmp.eq_of_compare rank
    have text := Std.LawfulEqCmp.eq_of_compare text
    cases a <;> cases b <;> simp_all [PathPart.rank, PathPart.text]

/-- Whether a path comes before another one. -/
def IsBefore (a b : String) : Prop := comparePaths a b = .lt

instance (a b : String) : Decidable (IsBefore a b) := inferInstanceAs (Decidable (_ = _))

instance : Std.TransCmp comparePaths where
  eq_swap {a b} := @Std.OrientedCmp.eq_swap _ (List.compareLex PathPart.compare) _ (parts a) (parts b)
  isLE_trans {a b c} :=
    @Std.TransCmp.isLE_trans _ (List.compareLex PathPart.compare) _ (parts a) (parts b) (parts c)

theorem comparePaths_eq_eq {a b : String} : comparePaths a b = .eq ↔ samePath a b = true := by
  unfold comparePaths samePath
  rw [Std.LawfulEqCmp.compare_eq_iff_eq, beq_iff_eq]

theorem IsBefore.trans_le {a b c : String} (h : IsBefore a b) (h' : pathLe b c = true) :
    IsBefore a c :=
  Std.TransCmp.lt_of_lt_of_isLE h h'

theorem isBefore_of_le {a b : String} (h : pathLe a b = true) (differ : samePath a b = false) :
    IsBefore a b := by
  unfold IsBefore
  cases order : comparePaths a b with
  | lt => rfl
  | eq =>
      rw [comparePaths_eq_eq, differ] at order
      cases order
  | gt =>
      rw [pathLe, order] at h
      cases h

theorem IsBefore.differ {a b : String} (h : IsBefore a b) : samePath a b = false := by
  rw [Bool.eq_false_iff]
  intro same
  rw [IsBefore, comparePaths_eq_eq.mpr same] at h
  cases h

/-! ### Repeated paths -/

theorem eraseRepsBy_loop {α : Type} (r : α → α → Bool) (a : α) (as acc : List α) :
    List.eraseRepsBy.loop r a as acc = acc.reverse ++ List.eraseRepsBy.loop r a as [] := by
  induction as generalizing a acc with
  | nil => simp [List.eraseRepsBy.loop]
  | cons b rest ih =>
      unfold List.eraseRepsBy.loop
      split
      · exact ih a acc
      · rw [ih b (a :: acc), ih b [a]]
        simp

theorem eraseRepsBy_cons_cons {α : Type} (r : α → α → Bool) (a b : α) (rest : List α) :
    (a :: b :: rest).eraseRepsBy r =
      if r a b then (a :: rest).eraseRepsBy r else a :: (b :: rest).eraseRepsBy r := by
  unfold List.eraseRepsBy
  dsimp only
  rw [List.eraseRepsBy.loop]
  cases r a b with
  | true => rfl
  | false => exact eraseRepsBy_loop r b rest [a]

/-- Sorted paths without the repeated ones are strictly increasing. -/
theorem pairwise_eraseRepsBy {a : String} {rest : List String}
    (sorted : (a :: rest).Pairwise fun a b => pathLe a b = true) :
    ∃ later, (a :: rest).eraseRepsBy samePath = a :: later ∧ later ⊆ rest ∧
      (a :: later).Pairwise IsBefore := by
  induction rest generalizing a with
  | nil => exact ⟨[], rfl, List.Subset.refl _, List.pairwise_singleton _ _⟩
  | cons b rest ih =>
      obtain ⟨first, sorted'⟩ := List.pairwise_cons.mp sorted
      obtain ⟨second, sorted''⟩ := List.pairwise_cons.mp sorted'
      rw [eraseRepsBy_cons_cons]
      cases same : samePath a b with
      | true =>
          rw [if_pos rfl]
          have skip : (a :: rest).Pairwise fun a b => pathLe a b = true :=
            List.pairwise_cons.mpr ⟨fun c mem => first c (List.mem_cons_of_mem _ mem), sorted''⟩
          obtain ⟨later, eq, subset, increasing⟩ := ih skip
          exact ⟨later, eq, List.Subset.trans subset (List.subset_cons_self _ _), increasing⟩
      | false =>
          rw [if_neg Bool.false_ne_true]
          obtain ⟨later, eq, subset, increasing⟩ := ih sorted'
          have before := isBefore_of_le (first b (List.mem_cons_self ..)) same
          refine ⟨b :: later, by rw [eq], List.cons_subset_cons _ subset, ?_⟩
          refine List.pairwise_cons.mpr ⟨fun c mem => ?_, increasing⟩
          rcases List.mem_cons.mp mem with rfl | mem
          · exact before
          · exact before.trans_le (second c (subset mem))

theorem pairwise_mergeSort_pathLe (paths : List String) :
    (paths.mergeSort pathLe).Pairwise fun a b => pathLe a b = true := by
  refine List.pairwise_mergeSort (fun a b c => Std.TransCmp.isLE_trans) (fun a b => ?_) paths
  unfold pathLe
  rw [@Std.OrientedCmp.eq_swap _ comparePaths _ b a]
  cases comparePaths a b <;> rfl

/-- The files of a run come in the order of their paths, each of them once. -/
theorem pairwise_arrange (paths : List String) : (arrange paths).Pairwise IsBefore := by
  have sorted := pairwise_mergeSort_pathLe paths
  unfold arrange
  generalize paths.mergeSort pathLe = inOrder at sorted
  cases inOrder with
  | nil => exact List.Pairwise.nil
  | cons a rest =>
      obtain ⟨later, eq, -, increasing⟩ := pairwise_eraseRepsBy sorted
      rw [eq]
      exact increasing

theorem mem_of_mem_arrange {path : String} {paths : List String} (mem : path ∈ arrange paths) :
    path ∈ paths := by
  have sorted := pairwise_mergeSort_pathLe paths
  have same : path ∈ paths.mergeSort pathLe → path ∈ paths := List.mem_mergeSort.mp
  unfold arrange at mem
  generalize paths.mergeSort pathLe = inOrder at sorted mem same
  refine same ?_
  cases inOrder with
  | nil => exact mem
  | cons a rest =>
      obtain ⟨later, eq, subset, -⟩ := pairwise_eraseRepsBy sorted
      rw [eq] at mem
      exact List.cons_subset_cons a subset mem

theorem eraseRepsBy_of_pairwise {paths : List String} (increasing : paths.Pairwise IsBefore) :
    paths.eraseRepsBy samePath = paths := by
  induction paths with
  | nil => rfl
  | cons a rest ih =>
      obtain ⟨first, increasing'⟩ := List.pairwise_cons.mp increasing
      cases rest with
      | nil => rfl
      | cons b rest =>
          have differ := (first b (List.mem_cons_self ..)).differ
          rw [eraseRepsBy_cons_cons, differ, if_neg Bool.false_ne_true, ih increasing']

/-- Files that are in order already stay as they are. -/
theorem arrange_of_pairwise {paths : List String} (increasing : paths.Pairwise IsBefore) :
    arrange paths = paths := by
  unfold arrange
  rw [List.mergeSort_of_pairwise (increasing.imp fun before => ?_), eraseRepsBy_of_pairwise increasing]
  rw [pathLe, before]
  rfl

end ComponentLowering.Batch
