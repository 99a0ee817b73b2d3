/-
# Names of hoisted sheets

The names of style sheets differ from each other and from whatever was taken before the first of them
was hoisted.  They also differ from the names that core functions are bound to, although nobody takes
those: a made name has two underscores in a row behind its first character, and those have none there.
-/
import ComponentLowering.Proofs.Style.Hoisting
import ComponentLowering.Proofs.StyleLedger

namespace ComponentLowering.Style

open ComponentLowering.Lowering ComponentLowering.Syntax

/-! ### Parted names -/

/-- Whether two underscores stand in a row somewhere among some characters. -/
def hasGap : List Char → Bool
  | [] => false
  | c :: rest => c == '_' && rest.head? == some '_' || hasGap rest

theorem hasGap_append (before after : List Char) : hasGap (before ++ '_' :: '_' :: after) = true := by
  induction before with
  | nil => rfl
  | cons c before ih => simp [hasGap, ih]

theorem hasGap_append_right {cs : List Char} (h : hasGap cs = true) (more : List Char) :
    hasGap (cs ++ more) = true := by
  induction cs with
  | nil => cases h
  | cons c rest ih =>
      simp only [hasGap, Bool.or_eq_true, Bool.and_eq_true, beq_iff_eq] at h
      simp only [List.cons_append, hasGap, Bool.or_eq_true, Bool.and_eq_true, beq_iff_eq]
      refine h.imp (fun ⟨here, next⟩ => ⟨here, ?_⟩) ih
      cases rest with
      | nil => cases next
      | cons d rest => exact next

/-- Whether two underscores in a row stand behind the first character of a name. -/
def IsParted (n : String) : Prop := hasGap n.toList.tail = true

/-- What stands behind a parted name leaves it parted. -/
theorem IsParted.append {n : String} (h : IsParted n) (tail : String) : IsParted (n ++ tail) := by
  have nonempty : n.toList ≠ [] := by
    intro none
    rw [IsParted, none] at h
    cases h
  rw [IsParted, String.toList_append, List.tail_append_of_ne_nil nonempty]
  exact hasGap_append_right h tail.toList

/-- A name is made of the name of its class, which is not empty, and of a path behind two underscores. -/
theorem isParted_candidate {className : String} (nonempty : className ≠ "")
    (key : Option String) (path : String) : IsParted (candidate className key path) := by
  obtain ⟨c, rest, chars⟩ := List.exists_cons_of_ne_nil (mt String.toList_eq_nil_iff.mp nonempty)
  obtain ⟨d, more, eq, -⟩ := constantCase_cons chars
  unfold IsParted candidate
  cases key with
  | none =>
      have gap := hasGap_append more (pathPart path).toList
      simpa [eq] using gap
  | some k =>
      have gap := hasGap_append (more ++ '_' :: plainChars k.toList) (pathPart path).toList
      simpa [eq] using gap

theorem IsParted.freshName {candidate : String} (h : IsParted candidate) (taken : List String) :
    IsParted (freshName taken candidate) := by
  unfold Style.freshName
  generalize List.find? _ _ = found
  cases found.getD 0 with
  | zero => exact h
  | succ n => exact (h.append "_").append _

/-- No core function is bound to a parted name. -/
theorem not_isParted_localName (f : CoreFunction) : ¬ IsParted f.localName := by
  unfold IsParted
  cases f <;> decide

/-! ### Runs -/

namespace Ledger

/-- Whether the sheets of a ledger have names of their own: they differ from each other, from some names
that were taken from the start, and from those of the core functions. -/
structure IsFresh (reserved : List String) (l : Ledger) : Prop where
  sound : l.Sound
  taken : reserved ⊆ l.taken
  free : ∀ s ∈ l.sheets, s.name ∉ reserved
  parted : ∀ s ∈ l.sheets, IsParted s.name

variable {reserved : List String} {l l' : Ledger}

/-- One hoist adds at most a sheet with a name of its own. -/
theorem IsFresh.step (fresh : l.IsFresh reserved) (step : l.HoistsTo l') : l'.IsFresh reserved := by
  obtain ⟨className, key, path, word, rfl⟩ := step
  have sound := fresh.sound.hoist className key path
  unfold hoist at sound ⊢
  split at sound
  · exact fresh
  · have free := freshName_not_mem l.taken (candidate className key path)
    have nonempty : className ≠ "" := by
      rintro rfl
      cases word
    have parted := (isParted_candidate nonempty key path).freshName l.taken
    refine ⟨sound, List.subset_cons_of_subset _ fresh.taken, ?_, ?_⟩
    · intro s mem
      rcases List.mem_append.mp mem with old | new
      · exact fresh.free s old
      · rw [List.mem_singleton.mp new]
        exact fun reserved => free (fresh.taken reserved)
    · intro s mem
      rcases List.mem_append.mp mem with old | new
      · exact fresh.parted s old
      · rw [List.mem_singleton.mp new]
        exact parted

/-- So do any number of hoists. -/
theorem IsFresh.run (fresh : l.IsFresh reserved) (reached : Relation.ReflTransGen HoistsTo l l') :
    l'.IsFresh reserved := by
  induction reached with
  | refl => exact fresh
  | tail _ step ih => exact ih.step step

end Ledger

end ComponentLowering.Style
