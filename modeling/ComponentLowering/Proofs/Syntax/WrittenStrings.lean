/-
# Strings as they are printed

A string is printed between double quotes, with escapes for what cannot stand there as it is.  What is printed
is read as the same string, whatever characters it holds and whatever stands behind it.
-/
import ComponentLowering.Proofs.Syntax.Spelling
import ComponentLowering.Syntax.Printer.Quoted

namespace ComponentLowering.Syntax

open ComponentLowering.Text

variable {c : Char} {cs behind rest spelled : List Char}

/-! ### One character -/

/-- Whether a spelling of a character is read as this character in front of a text. -/
def ReadsAs (spelled : List Char) (c : Char) (behind : List Char) : Prop :=
  ∀ fuel acc offset, ∃ stop, stringRest '"' (fuel + 1) acc ⟨spelled ++ behind, offset⟩ =
    stringRest '"' fuel (.char c :: acc) ⟨behind, stop⟩

theorem readsAs_plain (quote : c ≠ '"') (back : c ≠ '\\') (line : c ≠ '\n') (carriage : c ≠ '\r') :
    ReadsAs [c] c behind := by
  intro fuel acc offset
  refine ⟨offset + byteWidth c, ?_⟩
  rw [stringRest]
  simp [quote, back, line, carriage]

/-- A backslash begins an escape. -/
theorem readsAs_escape (escape : ∀ fuel offset, ∃ stop,
      escape? fuel true ⟨spelled ++ behind, offset⟩ = some ([.char c], ⟨behind, stop⟩)) :
    ReadsAs ('\\' :: spelled) c behind := by
  intro fuel acc offset
  obtain ⟨stop, eq⟩ := escape fuel (offset + byteWidth '\\')
  refine ⟨stop, ?_⟩
  rw [List.cons_append, stringRest]
  simp [eq]

/-- Four digits spell a character that is no half of a pair. -/
theorem readsAs_codePoint {n : Nat} {digits : List Char} (lead : isLeadSurrogate n = false)
    (element : StringElement.ofNat n = .char c)
    (read : ∀ fuel, unicodeEscape? fuel (digits ++ behind) = some (n, behind)) :
    ReadsAs ('\\' :: 'u' :: digits) c behind := by
  refine readsAs_escape fun fuel offset => ?_
  have value := unicodeElement?_of_not_lead lead (read fuel)
  rw [element] at value
  simp only [List.cons_append, escape?, value]
  exact ⟨_, rfl⟩

theorem readsAs_ite {d : Char} {yes no : List Char} (same : ReadsAs yes d behind)
    (other : c ≠ d → ReadsAs no c behind) : ReadsAs (if c = d then yes else no) c behind := by
  split
  · rename_i eq
    rw [eq]
    exact same
  · exact other ‹_›

theorem octalEscape_of_none {d : Char} (none : octalValue? d = none) (first : Nat) (rest : List Char) :
    octalEscape first (d :: rest) = (first, d :: rest) := by
  cases rest <;> simp [octalEscape, none]

/-- A zero is spelled by one digit in front of what is no digit. -/
theorem readsAs_zero {d : Char} (none : octalValue? d = none) :
    ReadsAs ['\\', '0'] '\x00' (d :: rest) := by
  refine readsAs_escape fun fuel offset => ?_
  have value : escape? fuel true ⟨'0' :: d :: rest, offset⟩ =
      some ([.char (Char.ofNat (octalEscape 0 (d :: rest)).1)],
        (⟨'0' :: d :: rest, offset⟩ : Cursor).forward (octalEscape 0 (d :: rest)).2) := rfl
  rw [octalEscape_of_none none] at value
  exact ⟨_, value⟩

/-- Whether a spelling of a character begins with a backslash or with the character. -/
def BeginsAs (c : Char) (spelled : List Char) : Prop :=
  ∃ d more, spelled = d :: more ∧ (d = '\\' ∨ d = c)

theorem beginsAs_ite {p : Prop} [Decidable p] {yes no : List Char} (one : p → BeginsAs c yes)
    (other : ¬p → BeginsAs c no) : BeginsAs c (if p then yes else no) := by
  split
  · exact one ‹_›
  · exact other ‹_›

theorem beginsAs_quotedElement (c : Char) (es : List StringElement) :
    BeginsAs c (quotedElement (.char c) es) := by
  have escape (more : List Char) : BeginsAs c ('\\' :: more) := ⟨_, _, rfl, .inl rfl⟩
  rw [quotedElement]
  iterate 7 refine beginsAs_ite (fun _ => escape _) fun _ => ?_
  refine beginsAs_ite (fun _ => beginsAs_ite (fun _ => escape _) fun _ => escape _) fun _ => ?_
  iterate 5 refine beginsAs_ite (fun _ => escape _) fun _ => ?_
  refine beginsAs_ite (fun tag => ⟨_, _, rfl, .inr ?_⟩) fun _ => ⟨_, _, rfl, .inr rfl⟩
  rw [Bool.and_eq_true, decide_eq_true_eq] at tag
  exact tag.1.symm

theorem octalValue?_eq_none {c : Char} (digit : ('0' ≤ c && c ≤ '9') = false) :
    octalValue? c = none := by
  refine if_neg fun octal => ?_
  rw [Bool.and_eq_false_iff, decide_eq_false_iff_not, decide_eq_false_iff_not] at digit
  simp only [Char.le_def, UInt32.le_iff_toNat_le] at octal digit
  simp at octal digit
  omega

/-- What a string is printed as does not begin with an octal digit, unless the string begins with a digit. -/
theorem exists_head_of_not_digit (digit : startsWithDigit (cs.map .char) = false) (rest : List Char) :
    ∃ d more, quotedElements (cs.map .char) ++ '"' :: rest = d :: more ∧ octalValue? d = .none := by
  cases cs with
  | nil => exact ⟨'"', rest, rfl, rfl⟩
  | cons c cs =>
      obtain ⟨d, more, eq, head⟩ := beginsAs_quotedElement c (cs.map .char)
      refine ⟨d, more ++ (quotedElements (cs.map .char) ++ '"' :: rest), ?_, ?_⟩
      · rw [List.map_cons, quotedElements, eq, List.append_assoc, List.cons_append]
      · rcases head with rfl | rfl
        · rfl
        · exact octalValue?_eq_none digit

/-- Whether a character is printed as the beginning of a closing tag, which is broken up. -/
def BreaksTag (c : Char) (cs : List Char) : Prop :=
  c = '<' ∧ startsWithAnyCase "/script".toList (cs.map .char) = true

theorem readsAs_quotedElement (whole : ¬ BreaksTag c cs) (rest : List Char) :
    ReadsAs (quotedElement (.char c) (cs.map .char)) c (quotedElements (cs.map .char) ++ '"' :: rest) := by
  rw [quotedElement]
  refine readsAs_ite (readsAs_escape fun _ _ => ⟨_, rfl⟩) fun quote => ?_
  refine readsAs_ite (readsAs_escape fun _ _ => ⟨_, rfl⟩) fun back => ?_
  refine readsAs_ite (readsAs_escape fun _ _ => ⟨_, rfl⟩) fun line => ?_
  refine readsAs_ite (readsAs_escape fun _ _ => ⟨_, rfl⟩) fun carriage => ?_
  iterate 3 refine readsAs_ite (readsAs_escape fun _ _ => ⟨_, rfl⟩) fun _ => ?_
  refine readsAs_ite ?_ fun _ => ?_
  · split
    · exact readsAs_escape fun _ _ => ⟨_, rfl⟩
    · rename_i digit
      obtain ⟨d, more, eq, none⟩ := exists_head_of_not_digit (Bool.eq_false_iff.mpr digit) rest
      rw [eq]
      exact readsAs_zero none
  iterate 3 refine readsAs_ite (readsAs_escape fun _ _ => ⟨_, rfl⟩) fun _ => ?_
  refine readsAs_ite (@readsAs_codePoint _ _ 0x2028 _ rfl rfl fun _ => rfl) fun _ => ?_
  refine readsAs_ite (@readsAs_codePoint _ _ 0x2029 _ rfl rfl fun _ => rfl) fun _ => ?_
  split
  · rename_i tag
    rw [Bool.and_eq_true, decide_eq_true_eq] at tag
    exact absurd tag whole
  · exact readsAs_plain quote back line carriage

/-! ### Strings -/

theorem eq_slash_of_toLower {c : Char} (lower : c.toLower = '/') : c = '/' := by
  unfold Char.toLower at lower
  split at lower
  · rename_i capital
    -- the small letters are behind the slash
    have value := congrArg Char.toNat lower
    have bounds : 'A'.val.toNat = 65 ∧ 'Z'.val.toNat = 90 := ⟨rfl, rfl⟩
    have shift : ('a'.val - 'A'.val).toNat = 32 := rfl
    simp only [ge_iff_le, UInt32.le_iff_toNat_le] at capital
    rw [Char.toNat, UInt32.toNat_add, shift] at value
    simp only [Char.reduceToNat] at value
    omega
  · exact lower

/-- A closing tag goes on with a slash. -/
theorem exists_slash_of_breaksTag (breaks : BreaksTag c cs) : ∃ more, cs = '/' :: more := by
  obtain ⟨-, starts⟩ := breaks
  cases cs with
  | nil => cases starts
  | cons d more =>
      simp only [List.map_cons, String.reduceToList, startsWithAnyCase, Bool.and_eq_true,
        beq_iff_eq] at starts
      exact ⟨more, by rw [eq_slash_of_toLower starts.1]⟩

theorem quotedElements_of_breaksTag (breaks : BreaksTag c cs) :
    quotedElements ((c :: cs).map .char) = '<' :: '\\' :: quotedElements (cs.map .char) := by
  obtain ⟨rfl, starts⟩ := breaks
  have tag : ('<' = '<' && startsWithAnyCase "/script".toList (cs.map .char)) = true := by
    rw [starts]
    rfl
  rw [List.map_cons, quotedElements, quotedElement]
  iterate 13 rw [if_neg (by decide)]
  rw [if_pos tag]
  rfl

/-- The backslash in front of the slash changes nothing. -/
theorem stringRest_closingTag (fuel : Nat) (acc : List StringElement) (offset : Nat) :
    stringRest '"' (fuel + 2) acc ⟨'<' :: '\\' :: '/' :: rest, offset⟩ =
      stringRest '"' (fuel + 1) (.char '<' :: acc)
        ⟨'/' :: rest, offset + byteWidth '<' + byteWidth '\\'⟩ := rfl

/-- What a string is printed as is read as its characters. -/
theorem stringRest_quotedElements (cs rest : List Char) (fuel : Nat) (hfuel : cs.length < fuel)
    (acc : List StringElement) (offset : Nat) :
    ∃ stop, stringRest '"' fuel acc ⟨quotedElements (cs.map .char) ++ '"' :: rest, offset⟩ =
      some ((cs.map StringElement.char).reverse ++ acc, ⟨rest, stop⟩) := by
  induction cs generalizing fuel acc offset with
  | nil =>
      obtain ⟨fuel, rfl⟩ := Nat.exists_eq_add_one.mpr hfuel
      exact ⟨_, rfl⟩
  | cons c cs ih =>
      obtain ⟨fuel, rfl⟩ := Nat.exists_eq_add_one.mpr (Nat.zero_lt_of_lt hfuel)
      replace hfuel : cs.length < fuel := by simpa using hfuel
      by_cases breaks : BreaksTag c cs
      · obtain ⟨more, rfl⟩ := exists_slash_of_breaksTag breaks
        obtain ⟨fuel, rfl⟩ := Nat.exists_eq_add_one.mpr (Nat.zero_lt_of_lt hfuel)
        have slash : quotedElements (('/' :: more).map .char) = '/' :: quotedElements (more.map .char) := rfl
        have tag := quotedElements_of_breaksTag breaks
        obtain ⟨rfl, -⟩ := breaks
        obtain ⟨stop, eq⟩ := ih (fuel + 1) hfuel (.char '<' :: acc) _
        rw [slash] at eq tag
        rw [tag]
        refine ⟨stop, (stringRest_closingTag fuel acc offset).trans (eq.trans ?_)⟩
        simp
      · obtain ⟨here, eq⟩ := readsAs_quotedElement breaks rest fuel acc offset
        obtain ⟨stop, eq'⟩ := ih fuel hfuel (.char c :: acc) here
        rw [List.map_cons, quotedElements, List.append_assoc]
        exact ⟨stop, by rw [eq, eq']; simp⟩

theorem length_le_quotedElements (cs : List Char) : cs.length ≤ (quotedElements (cs.map .char)).length := by
  induction cs with
  | nil => exact Nat.le_refl _
  | cons c cs ih =>
      obtain ⟨d, more, eq, -⟩ := beginsAs_quotedElement c (cs.map .char)
      rw [List.map_cons, quotedElements, eq, List.length_append, List.length_cons, List.length_cons]
      omega

/-- A string as it is printed. -/
theorem begins_written (s : String) (rest : List Char) :
    Begins (quoted (.ofString s) ++ rest) (.string (.ofString s)) rest where
  solid := startsSolid_cons (by decide) (by decide) (by decide) _
  shorter := by simp [quoted]; omega
  lexemeAt := by
    intro fuel offset hfuel
    have units : (StringValue.ofString s).units = s.toList.map .char := rfl
    have long := length_le_quotedElements s.toList
    have read := ofUnits_map_char s.toList
    rw [String.ofList_toList] at read
    simp only [quoted, units, List.length_append, List.length_cons] at hfuel
    obtain ⟨stop, eq⟩ :=
      stringRest_quotedElements s.toList rest fuel (by omega) [] (offset + byteWidth '"')
    refine ⟨stop, ?_⟩
    rw [lexemeAt]
    simp [quoted, units, eq, read]

end ComponentLowering.Syntax
