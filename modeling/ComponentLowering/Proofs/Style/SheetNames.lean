/-
# Names of style sheets are names

Whatever a path and a key look like, the name that is made of them can be bound to a style sheet.
It holds an underscore, so it is none of the words that mean something by themselves.
-/
import ComponentLowering.Proofs.Syntax.MadeTexts
import ComponentLowering.Proofs.Syntax.Operands
import ComponentLowering.Style.Ledger

namespace ComponentLowering.Style

open ComponentLowering.Syntax ComponentLowering.Text

/-! ### Names with an underscore -/

/-- Whether a text is a plain name with an underscore in it. -/
structure IsSheetName (n : String) : Prop where
  isName : isIdentifierName n = true
  underscore : '_' ∈ n.toList

/-- The words without an underscore that mean something in front of or behind a name. -/
theorem IsSheetName.ne_of_no_underscore {n word : String} (h : IsSheetName n)
    (none : '_' ∉ word.toList) : n ≠ word := by
  rintro rfl
  exact none h.underscore

theorem IsSheetName.isWordText {n : String} (h : IsSheetName n) : isWordText n = true :=
  isWordText_of_isIdentifierName h.isName

private theorem reservedWords_no_underscore : ∀ word ∈ reservedWords, '_' ∉ word.toList := by
  decide

theorem IsSheetName.isPlainName {n : String} (h : IsSheetName n) : Parser.IsPlainName n where
  notReserved := by
    rw [List.contains_eq_mem, decide_eq_false_iff_not]
    intro mem
    exact reservedWords_no_underscore n mem h.underscore
  notAwait := h.ne_of_no_underscore (by decide)

/-! ### Characters of candidates -/

theorem isAsciiNamePart_of_start {c : Char} (h : isAsciiNameStart c = true) :
    isAsciiNamePart c = true := by
  simp only [isAsciiNameStart, isAsciiNamePart, Char.isAlphanum, Bool.or_eq_true] at h ⊢
  tauto

theorem plainChars_all (cs : List Char) : ∀ c ∈ plainChars cs, isAsciiNamePart c = true := by
  intro c hc
  obtain ⟨d, _, rfl⟩ := List.mem_map.mp hc
  split
  · assumption
  · rfl

/-- The capital of a small letter is 32 code points in front of it; other characters have none. -/
theorem toNat_toUpper (c : Char) :
    c.toUpper.toNat = if 97 ≤ c.toNat ∧ c.toNat ≤ 122 then c.toNat - 32 else c.toNat := by
  unfold Char.toUpper
  simp only [UInt32.le_iff_toNat_le, Char.toNat]
  split
  · rename_i small
    have lower : 'a'.val.toNat = 97 ∧ 'z'.val.toNat = 122 := ⟨rfl, rfl⟩
    have shift : ('A'.val - 'a'.val).toNat = 4294967264 := rfl
    rw [if_pos (by omega), UInt32.toNat_add, shift]
    omega
  · rename_i other
    exact (if_neg other).symm

theorem isAlpha_iff_toNat {c : Char} :
    c.isAlpha = true ↔ 65 ≤ c.toNat ∧ c.toNat ≤ 90 ∨ 97 ≤ c.toNat ∧ c.toNat ≤ 122 := by
  change (decide ('A'.val ≤ c.val ∧ c.val ≤ 'Z'.val) ||
    (decide ('a'.val ≤ c.val) && decide (c.val ≤ 'z'.val))) = true ↔ _
  simp [UInt32.le_iff_toNat_le]

/-- A character in capitals, after it is replaced if it has to be, begins a name unless it is a digit. -/
theorem isAsciiNameStart_capital_iff {c : Char} :
    isAsciiNameStart (if isAsciiNamePart c.toUpper then c.toUpper else '_') = true ↔
      c.isDigit = false := by
  by_cases alpha : c.isAlpha = true
  · have upper : c.toUpper.isAlpha = true := by
      have := toNat_toUpper c
      rw [isAlpha_iff_toNat] at alpha ⊢
      split at this <;> omega
    have capital : isAsciiNameStart c.toUpper = true := by simp [isAsciiNameStart, upper]
    rw [if_pos (isAsciiNamePart_of_start capital)]
    exact iff_of_true capital (isDigit_of_start (isIdentifierStart_of_ascii (by
      simp [isAsciiNameStart, alpha])))
  · have same : c.toUpper = c := by
      rw [← Char.toNat_inj, toNat_toUpper]
      rw [isAlpha_iff_toNat] at alpha
      exact if_neg (by omega)
    rw [same]
    split
    · rename_i part
      constructor
      · exact fun start => isDigit_of_start (isIdentifierStart_of_ascii start)
      · intro digit
        simpa only [isAsciiNameStart, isAsciiNamePart, Char.isAlphanum, digit, Bool.or_false] using part
    · rename_i other
      refine iff_of_true rfl (Bool.not_eq_true _ ▸ fun digit => other ?_)
      simp [isAsciiNamePart, Char.isAlphanum, digit]

/-- A class name in capitals begins a name unless the class name begins with a digit, and it goes on with
one. -/
theorem constantCase_cons {name : String} {c : Char} {rest : List Char} (eq : name.toList = c :: rest) :
    ∃ d more, (constantCase name).toList = d :: more ∧
      (isAsciiNameStart d = true ↔ c.isDigit = false) ∧ ∀ c ∈ more, isAsciiNamePart c = true := by
  refine ⟨_, plainChars (capitals (some c) rest), ?_, isAsciiNameStart_capital_iff, plainChars_all _⟩
  simp [constantCase, eq, capitals, plainChars]

theorem isIdentifierName_cons_iff {n : String} {c : Char} {rest : List Char} (eq : n.toList = c :: rest) :
    isIdentifierName n = true ↔
      isAsciiNameStart c = true ∧ ∀ d ∈ rest, isAsciiNamePart d = true := by
  unfold isIdentifierName
  rw [eq, Bool.and_eq_true, List.all_eq_true]

/-- Characters of a name may be added to what is not empty. -/
theorem isIdentifierName_append_iff {n tail : String} (nonempty : n ≠ "")
    (parts : ∀ c ∈ tail.toList, isAsciiNamePart c = true) :
    isIdentifierName (n ++ tail) = true ↔ isIdentifierName n = true := by
  obtain ⟨c, rest, eq⟩ := List.exists_cons_of_ne_nil (mt String.toList_eq_nil_iff.mp nonempty)
  have all : (n ++ tail).toList = c :: (rest ++ tail.toList) := by
    rw [String.toList_append, eq, List.cons_append]
  rw [isIdentifierName_cons_iff eq, isIdentifierName_cons_iff all, List.forall_mem_append,
    and_iff_left parts]

theorem ne_empty_of_isIdentifierName {n : String} (h : isIdentifierName n = true) : n ≠ "" := by
  rintro rfl
  cases h

/-! ### Candidates -/

theorem IsSheetName.append {n tail : String} (h : IsSheetName n)
    (parts : ∀ c ∈ tail.toList, isAsciiNamePart c = true) : IsSheetName (n ++ tail) where
  isName := (isIdentifierName_append_iff (ne_empty_of_isIdentifierName h.isName) parts).mpr h.isName
  underscore := by
    rw [String.toList_append]
    exact List.mem_append_left _ h.underscore

/-- What stands in a candidate behind the name of its class. -/
theorem candidate_eq (className : String) (key : Option String) (path : String) :
    ∃ tail, (candidate className key path).toList = (constantCase className).toList ++ '_' :: tail ∧
      ∀ c ∈ tail, isAsciiNamePart c = true := by
  have plain := plainChars_all (withoutDot path.toList)
  cases key with
  | none =>
      refine ⟨'_' :: plainChars (withoutDot path.toList), by simp [candidate, pathPart], ?_⟩
      exact List.forall_mem_cons.mpr ⟨rfl, plain⟩
  | some k =>
      refine ⟨plainChars k.toList ++ '_' :: '_' :: plainChars (withoutDot path.toList), by
        simp [candidate, pathPart], ?_⟩
      exact List.forall_mem_append.mpr ⟨plainChars_all k.toList,
        List.forall_mem_cons.mpr ⟨rfl, List.forall_mem_cons.mpr ⟨rfl, plain⟩⟩⟩

/-- A candidate is a name unless the name of its class begins with a digit. -/
theorem isIdentifierName_candidate_iff {className : String} {key : Option String} {path : String} :
    isIdentifierName (candidate className key path) = true ↔
      ∀ c ∈ className.toList.head?, c.isDigit = false := by
  obtain ⟨tail, eq, parts⟩ := candidate_eq className key path
  cases name : className.toList with
  | nil =>
      have none : (constantCase className).toList = [] := by simp [constantCase, name, capitals, plainChars]
      rw [none, List.nil_append] at eq
      rw [isIdentifierName_cons_iff eq]
      exact iff_of_true ⟨rfl, parts⟩ (by simp)
  | cons c rest =>
      obtain ⟨d, more, eq', start, parts'⟩ := constantCase_cons name
      rw [eq', List.cons_append] at eq
      have all : ∀ x ∈ more ++ '_' :: tail, isAsciiNamePart x = true :=
        List.forall_mem_append.mpr ⟨parts', List.forall_mem_cons.mpr ⟨rfl, parts⟩⟩
      rw [isIdentifierName_cons_iff eq, start, and_iff_left all]
      simp

theorem underscore_mem_candidate (className : String) (key : Option String) (path : String) :
    '_' ∈ (candidate className key path).toList := by
  obtain ⟨tail, eq, -⟩ := candidate_eq className key path
  rw [eq]
  exact List.mem_append_right _ (List.mem_cons_self ..)

theorem isSheetName_candidate {className : String} (word : isWordText className = true)
    (key : Option String) (path : String) : IsSheetName (candidate className key path) where
  isName := by
    rw [isIdentifierName_candidate_iff]
    unfold isWordText at word
    split at word
    · contradiction
    · rename_i eq
      simp [eq, isDigit_of_start (Bool.and_eq_true_iff.mp word).1]
  underscore := underscore_mem_candidate className key path

/-- A number is added to a candidate as characters of a name. -/
theorem numbered_eq_append (n : String) (k : Nat) :
    ∃ tail, numbered n k = n ++ tail ∧ ∀ c ∈ tail.toList, isAsciiNamePart c = true := by
  cases k with
  | zero => exact ⟨"", String.append_empty.symm, by simp⟩
  | succ k =>
      refine ⟨"_" ++ String.ofList (Nat.toDigits 10 (k + 1)), String.append_assoc .., ?_⟩
      rw [String.toList_append, List.forall_mem_append]
      refine ⟨by simp [isAsciiNamePart], fun c hc => ?_⟩
      rw [String.toList_ofList] at hc
      have digit := Nat.isDigit_of_mem_toDigits (by decide) (le_refl 10) hc
      simp [isAsciiNamePart, Char.isAlphanum, digit]

/-- Every number that may be added to a candidate leaves it a name. -/
theorem IsSheetName.numbered {n : String} (h : IsSheetName n) (k : Nat) :
    IsSheetName (Style.numbered n k) := by
  obtain ⟨tail, eq, parts⟩ := numbered_eq_append n k
  rw [eq]
  exact h.append parts

theorem isSheetName_freshName (taken : List String) {candidate : String}
    (h : IsSheetName candidate) : IsSheetName (freshName taken candidate) :=
  h.numbered _

end ComponentLowering.Style
