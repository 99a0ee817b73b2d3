/-
# Stored strings

A string is stored as a text with a mark.  The two together tell its elements, and so its code units.  The
text alone does not: without the mark, the digits of each lone surrogate are characters of their own, and the
string becomes longer.
-/
import ComponentLowering.Proofs.Syntax.Spelling

namespace ComponentLowering.Text

open ComponentLowering.Syntax

variable {n : Nat} {e : StringElement} {units : List StringElement} {v : StringValue}

/-! ### Digits -/

theorem hexValue?_hexDigit (n : Nat) : hexValue? (hexDigit n) = some (n % 16) := by
  have small : n % 16 < 16 := Nat.mod_lt n (by decide)
  unfold hexDigit
  generalize n % 16 = d at small
  interval_cases d <;> rfl

/-- Four digits are enough for a code unit. -/
theorem fourHexValue?_fourHexDigits (small : n < 0x10000) (rest : List Char) :
    fourHexValue? (fourHexDigits n ++ rest) = some (n, rest) := by
  have digits : n / 4096 % 16 * 4096 + n / 256 % 16 * 256 + n / 16 % 16 * 16 + n % 16 = n := by omega
  simp [fourHexDigits, fourHexValue?, hexValue?_hexDigit, digits]

/-! ### Elements -/

/-- Whether what stands for a lone surrogate is a surrogate. -/
def StringElement.IsSound : StringElement → Prop
  | .char _ => True
  | .lone n => isLeadSurrogate n = true ∨ isTrailSurrogate n = true

theorem StringElement.IsSound.ofNat_eq (sound : (StringElement.lone n).IsSound) :
    StringElement.ofNat n = .lone n := by
  rw [StringElement.ofNat, if_pos (Bool.or_eq_true_iff.mpr sound)]

theorem StringElement.IsSound.lt (sound : (StringElement.lone n).IsSound) : n < 0x10000 := by
  simp only [StringElement.IsSound, isLeadSurrogate, isTrailSurrogate, Bool.and_eq_true,
    decide_eq_true_eq] at sound
  omega

theorem stored_replacement :
    (StringElement.char replacement).stored = replacement :: fourHexDigits 0xFFFD := rfl

theorem stored_char {c : Char} (other : c ≠ replacement) : (StringElement.char c).stored = [c] := by
  simp [StringElement.stored, other]

/-! ### The elements of a marked text -/

theorem unitsOfMarked_escape (small : n < 0x10000) (rest : List Char) :
    StringValue.unitsOfMarked (replacement :: (fourHexDigits n ++ rest)) =
      .ofNat n :: StringValue.unitsOfMarked rest := by
  have read := fourHexValue?_fourHexDigits small []
  simp only [fourHexDigits, List.cons_append, List.nil_append] at read ⊢
  rw [StringValue.unitsOfMarked, if_pos rfl, read]

theorem unitsOfMarked_char {c : Char} (other : c ≠ replacement) (rest : List Char) :
    StringValue.unitsOfMarked (c :: rest) = .char c :: StringValue.unitsOfMarked rest := by
  match rest with
  | a :: b :: x :: y :: rest => rw [StringValue.unitsOfMarked, if_neg other]
  | [] | [_] | [_, _] | [_, _, _] => rfl

theorem unitsOfMarked_stored (sound : e.IsSound) (rest : List Char) :
    StringValue.unitsOfMarked (e.stored ++ rest) = e :: StringValue.unitsOfMarked rest := by
  cases e with
  | lone n => rw [StringElement.stored, List.cons_append, unitsOfMarked_escape sound.lt, sound.ofNat_eq]
  | char c =>
      by_cases same : c = replacement
      · rw [same, stored_replacement, List.cons_append, unitsOfMarked_escape (by decide)]
        rfl
      · rw [stored_char same]
        exact unitsOfMarked_char same rest

theorem unitsOfMarked_flatMap_stored (sound : ∀ e ∈ units, e.IsSound) :
    StringValue.unitsOfMarked (units.flatMap StringElement.stored) = units := by
  induction units with
  | nil => rfl
  | cons e rest ih =>
      obtain ⟨here, later⟩ := List.forall_mem_cons.mp sound
      rw [List.flatMap_cons, unitsOfMarked_stored here, ih later]

theorem exists_chars_of_not_lone (none : units.any StringElement.isLone = false) :
    ∃ cs : List Char, units = cs.map StringElement.char := by
  induction units with
  | nil => exact ⟨[], rfl⟩
  | cons e rest ih =>
      rw [List.any_cons, Bool.or_eq_false_iff] at none
      obtain ⟨cs, rfl⟩ := ih none.2
      cases e with
      | lone n => cases none.1
      | char c => exact ⟨c :: cs, rfl⟩

/-- What is stored is told again by the text and the mark. -/
theorem units_ofUnits (sound : ∀ e ∈ units, e.IsSound) : (StringValue.ofUnits units).units = units := by
  cases lone : units.any StringElement.isLone with
  | true =>
      rw [StringValue.ofUnits, if_pos lone, StringValue.units, if_pos rfl, String.toList_ofList,
        unitsOfMarked_flatMap_stored sound]
  | false =>
      obtain ⟨cs, rfl⟩ := exists_chars_of_not_lone lone
      rw [ofUnits_map_char, StringValue.units, StringValue.ofString, if_neg Bool.false_ne_true,
        String.toList_ofList]

/-! ### A text without its mark -/

/-- The code units of a text. -/
def textUnits (cs : List Char) : List Nat := cs.flatMap fun c => (StringElement.char c).codeUnits

theorem codeUnits_ofString (s : String) : (StringValue.ofString s).codeUnits = textUnits s.toList := by
  simp [StringValue.codeUnits, StringValue.units, StringValue.ofString, textUnits, List.flatMap_map]

theorem length_le_textUnits (cs : List Char) : cs.length ≤ (textUnits cs).length := by
  unfold textUnits
  induction cs with
  | nil => exact Nat.le_refl 0
  | cons c rest ih =>
      have here : 1 ≤ (StringElement.char c).codeUnits.length := by
        simp only [StringElement.codeUnits]
        split <;> simp
      simp only [List.flatMap_cons, List.length_append, List.length_cons]
      omega

/-- A lone surrogate is one code unit, but its stored form has five characters. -/
theorem length_codeUnits_lone_lt (n : Nat) :
    (StringElement.lone n).codeUnits.length < (textUnits (StringElement.lone n).stored).length :=
  Nat.lt_of_lt_of_le (by simp [StringElement.codeUnits, StringElement.stored, fourHexDigits])
    (length_le_textUnits _)

theorem length_codeUnits_le (e : StringElement) :
    e.codeUnits.length ≤ (textUnits e.stored).length := by
  cases e with
  | lone n => exact (length_codeUnits_lone_lt n).le
  | char c =>
      by_cases same : c = replacement
      · rw [same]
        decide
      · simp [stored_char same, textUnits]

theorem length_flatMap_codeUnits_le (units : List StringElement) :
    (units.flatMap StringElement.codeUnits).length ≤
      (textUnits (units.flatMap StringElement.stored)).length := by
  induction units with
  | nil => exact Nat.le_refl 0
  | cons e rest ih =>
      have here := length_codeUnits_le e
      unfold textUnits at here ih ⊢
      simp only [List.flatMap_cons, List.flatMap_append, List.length_append] at here ih ⊢
      omega

theorem length_flatMap_codeUnits_lt (lone : units.any StringElement.isLone = true) :
    (units.flatMap StringElement.codeUnits).length <
      (textUnits (units.flatMap StringElement.stored)).length := by
  obtain ⟨e, mem, isLone⟩ := List.any_eq_true.mp lone
  obtain ⟨before, after, rfl⟩ := List.append_of_mem mem
  cases e with
  | char c => cases isLone
  | lone n =>
      have front := length_flatMap_codeUnits_le before
      have here := length_codeUnits_lone_lt n
      have behind := length_flatMap_codeUnits_le after
      unfold textUnits at front here behind ⊢
      simp only [List.flatMap_append, List.flatMap_cons, List.length_append] at front here behind ⊢
      omega

/-! ### Stored strings -/

/-- Whether a value is the stored form of a string. -/
def StringValue.IsStored (v : StringValue) : Prop :=
  ∃ units, (∀ e ∈ units, e.IsSound) ∧ v = .ofUnits units

theorem isStored_ofString (s : String) : (StringValue.ofString s).IsStored := by
  refine ⟨s.toList.map .char, fun e mem => ?_, ?_⟩
  · obtain ⟨c, -, rfl⟩ := List.mem_map.mp mem
    trivial
  · rw [ofUnits_map_char, String.ofList_toList]

/-- A string is still the same when its mark is dropped exactly if it has none. -/
theorem codeUnits_text_eq_iff (stored : v.IsStored) :
    (StringValue.ofString v.text).codeUnits = v.codeUnits ↔ v.hasLoneSurrogates = false := by
  obtain ⟨units, sound, rfl⟩ := stored
  have own : (StringValue.ofUnits units).codeUnits = units.flatMap StringElement.codeUnits := by
    rw [StringValue.codeUnits, units_ofUnits sound]
  cases lone : units.any StringElement.isLone with
  | true =>
      have eq : StringValue.ofUnits units = ⟨String.ofList (units.flatMap StringElement.stored), true⟩ := by
        rw [StringValue.ofUnits, if_pos lone]
      have longer := length_flatMap_codeUnits_lt lone
      rw [own, codeUnits_ofString, eq, String.toList_ofList]
      refine iff_of_false (fun same => ?_) Bool.noConfusion
      rw [same] at longer
      exact Nat.lt_irrefl _ longer
  | false =>
      have unmarked : (StringValue.ofUnits units).hasLoneSurrogates = false := by
        simp [StringValue.ofUnits, lone]
      have same : StringValue.ofString (StringValue.ofUnits units).text = .ofUnits units := by
        rw [StringValue.ofString, ← unmarked]
      exact iff_of_true (by rw [same]) unmarked

end ComponentLowering.Text
