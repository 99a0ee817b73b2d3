/-
# Texts that are made up

The texts of snippets are put together from words, strings, marks and blanks.  What each text spells
is put together likewise.
-/
import ComponentLowering.Proofs.Syntax.Spelling
import ComponentLowering.Syntax.Name

namespace ComponentLowering.Syntax

open ComponentLowering.Code ComponentLowering.Text

variable {text rest : List Char} {lexemes : List Lexeme}

/-! ### Words -/

/-- Whether a text is one word. -/
def isWordText (n : String) : Bool :=
  match n.toList with
  | [] => false
  | c :: rest => isIdentifierStart c && rest.all isIdentifierPart

theorem isWordText_of_isBindingName {n : String} (h : isBindingName n = true) :
    isWordText n = true := by
  unfold isBindingName at h
  unfold isWordText
  split at h
  · contradiction
  · simp_all

theorem isIdentifierStart_of_ascii {c : Char} (h : isAsciiNameStart c = true) :
    isIdentifierStart c = true := by simp [isIdentifierStart, h]

theorem isIdentifierPart_of_ascii {c : Char} (h : isAsciiNamePart c = true) :
    isIdentifierPart c = true := by simp [isIdentifierPart, h]

theorem isWordText_of_isIdentifierName {n : String} (h : isIdentifierName n = true) :
    isWordText n = true := by
  unfold isIdentifierName at h
  unfold isWordText
  cases eq : n.toList with
  | nil =>
      rw [eq] at h
      contradiction
  | cons c rest =>
      rw [eq] at h
      obtain ⟨start, parts⟩ := Bool.and_eq_true_iff.mp h
      rw [List.all_eq_true] at parts
      simp only [isIdentifierStart_of_ascii start, Bool.true_and, List.all_eq_true]
      exact fun d hd => isIdentifierPart_of_ascii (parts d hd)

theorem not_mem_reservedWords_of_isBindingName {n : String} (h : isBindingName n = true) :
    reservedWords.contains n = false := by
  unfold isBindingName at h
  split at h
  · contradiction
  · simp_all

/-- A word in front of what does not go on with it. -/
theorem Spells.word {n : String} (h : Spells rest lexemes) (word : isWordText n = true)
    (ends : EndsWord rest) : Spells (n.toList ++ rest) (.word n false :: lexemes) := by
  unfold isWordText at word
  split at word
  · contradiction
  · rename_i c w eq
    obtain ⟨start, parts⟩ := Bool.and_eq_true_iff.mp word
    rw [eq, show n = String.ofList (c :: w) by rw [← eq, String.ofList_toList]]
    exact .lexeme (begins_word start (List.all_eq_true.mp parts) ends) h

theorem endsWord_space : EndsWord (' ' :: rest) := endsWord_cons (by decide) (by decide) rest

/-! ### Strings and marks -/

theorem Spells.string (h : Spells rest lexemes) (value : String) :
    Spells ((quote value).toList ++ rest) (.string (.ofString value) :: lexemes) := by
  have begins := begins_quoted value.toList rest
  rw [String.ofList_toList] at begins
  rw [quote, String.toList_ofList]
  exact .lexeme begins h

/-- The marks that are part of no longer mark, whatever follows them. -/
def loneMarks : List (Char × String) :=
  [('\x7b', "\x7b"), ('\x7d', "\x7d"), ('(', "("), (')', ")"), ('[', "["), (']', "]"), (';', ";"),
    (',', ","), (':', ":")]

theorem Spells.mark {c : Char} {m : String} (h : Spells rest lexemes) (lone : (c, m) ∈ loneMarks) :
    Spells (c :: rest) (.mark m :: lexemes) := by
  have plain : c ∈ plainMarks ∧ String.singleton c = m ∧
      markAt? (c :: rest) = some (String.singleton c) := by
    simp only [loneMarks, List.mem_cons, Prod.mk.injEq, List.not_mem_nil, or_false] at lone
    rcases lone with ⟨rfl, rfl⟩ | ⟨rfl, rfl⟩ | ⟨rfl, rfl⟩ | ⟨rfl, rfl⟩ | ⟨rfl, rfl⟩ | ⟨rfl, rfl⟩ |
      ⟨rfl, rfl⟩ | ⟨rfl, rfl⟩ | ⟨rfl, rfl⟩ <;> exact ⟨by decide, by decide, rfl⟩
  obtain ⟨plain, rfl, mark⟩ := plain
  exact .lexeme (begins_mark plain mark) h

/-- The sign of an assignment with a blank behind it. -/
theorem Spells.equals (h : Spells rest lexemes) :
    Spells ('=' :: ' ' :: rest) (.mark "=" :: lexemes) :=
  .lexeme (begins_mark (by decide) rfl) h.space

/-- The sign of a sum with a blank behind it. -/
theorem Spells.plus (h : Spells rest lexemes) :
    Spells ('+' :: ' ' :: rest) (.mark "+" :: lexemes) :=
  .lexeme (begins_mark (by decide) rfl) h.space

/-- A dot in front of a word. -/
theorem Spells.dotWord {n : String} (h : Spells rest lexemes) (word : isWordText n = true)
    (ends : EndsWord rest) :
    Spells ('.' :: (n.toList ++ rest)) (.mark "." :: .word n false :: lexemes) := by
  have spelled := h.word word ends
  unfold isWordText at word
  split at word
  · contradiction
  · rename_i c w eq
    rw [eq] at spelled ⊢
    exact .lexeme (begins_dot (Bool.and_eq_true_iff.mp word).1) spelled

/-! ### Lines -/

/-- Whether a text spells some lexemes, whatever text follows it. -/
def SpellsHere (text : String) (lexemes : List Lexeme) : Prop :=
  ∀ rest more, Spells rest more → Spells (text.toList ++ rest) (lexemes ++ more)

theorem BeginsLine.append {ls : List Lexeme} (h : BeginsLine ls) (more : List Lexeme) :
    BeginsLine (ls ++ more) := by
  obtain ⟨n, mem, head⟩ := h
  exact ⟨n, mem, by rw [List.head?_append, head]; rfl⟩

/-- Texts on lines of their own, each behind the first one beginning with the word of a line. -/
theorem spells_lines {pieces : List (String × List Lexeme)}
    (each : ∀ p ∈ pieces, SpellsHere p.1 p.2) (lines : ∀ p ∈ pieces.tail, BeginsLine p.2) :
    SpellsHere ("\n".intercalate (pieces.map (·.1))) (pieces.flatMap (·.2)) := by
  induction pieces with
  | nil => exact fun rest more h => by simpa using h
  | cons p pieces ih =>
      obtain ⟨here, others⟩ := List.forall_mem_cons.mp each
      intro rest more h
      cases pieces with
      | nil => simpa using here rest more h
      | cons q pieces =>
          obtain ⟨line, later⟩ := List.forall_mem_cons.mp lines
          have begins : BeginsLine ((q :: pieces).flatMap (·.2) ++ more) := by
            rw [List.flatMap_cons, List.append_assoc]
            exact line.append _
          have spelled := here _ _ ((ih others later rest more h).newline begins)
          simpa [String.intercalate_cons_cons] using spelled

end ComponentLowering.Syntax
