/-
# Texts that spell tokens

`Spells text lexemes` says that a text without comments consists of the given tokens.  It is built
up like the text itself, a token or a blank at a time, and determines what the reader of tokens
finds at every place of the text.
-/
import ComponentLowering.Code.Spelling
import ComponentLowering.Syntax.Grammar.Parser
import Mathlib.Data.Bool.AllAny
import Mathlib.Tactic.IntervalCases

namespace ComponentLowering.Syntax

open ComponentLowering.Code ComponentLowering.Text

/-! ### Characters -/

/-- The code points of white space, line ends and digits. -/
private def outsiders : List Nat :=
  [0x09, 0x0A, 0x0B, 0x0C, 0x0D, 0x20, 0x30, 0x31, 0x32, 0x33, 0x34, 0x35, 0x36, 0x37, 0x38, 0x39,
    0x85, 0xA0, 0x1680, 0x2000, 0x2001, 0x2002, 0x2003, 0x2004, 0x2005, 0x2006, 0x2007, 0x2008,
    0x2009, 0x200A, 0x200B, 0x2028, 0x2029, 0x202F, 0x205F, 0x3000, 0xFEFF]

private theorem isIdentifierStart_outsiders :
    ∀ n ∈ outsiders, isIdentifierStart (Char.ofNat n) = false := by decide +kernel

private theorem toNat_not_mem_outsiders {c : Char} (h : isIdentifierStart c = true) :
    c.toNat ∉ outsiders := by
  intro mem
  have := isIdentifierStart_outsiders c.toNat mem
  rw [Char.ofNat_toNat, h] at this
  contradiction

/-- No identifier begins with white space. -/
theorem isSpace_of_start {c : Char} (h : isIdentifierStart c = true) : isSpace c = false := by
  by_contra space
  apply toNat_not_mem_outsiders h
  simp only [isSpace, Bool.not_eq_false, Bool.or_eq_true, Bool.and_eq_true, beq_iff_eq,
    decide_eq_true_eq, ← Char.toNat_inj, Char.reduceToNat] at space
  simp only [outsiders, List.mem_cons]
  omega

/-- No identifier begins with a line end. -/
theorem isLineEnd_of_start {c : Char} (h : isIdentifierStart c = true) :
    isLineEnd c = false := by
  by_contra ends
  apply toNat_not_mem_outsiders h
  simp only [isLineEnd, Bool.not_eq_false, Bool.or_eq_true, beq_iff_eq] at ends
  rcases ends with ((rfl | rfl) | rfl) | rfl <;> decide

/-- No identifier begins with a digit. -/
theorem isDigit_of_start {c : Char} (h : isIdentifierStart c = true) : c.isDigit = false := by
  by_contra digit
  apply toNat_not_mem_outsiders h
  simp only [Char.isDigit, Bool.not_eq_false, Bool.and_eq_true, decide_eq_true_eq, ge_iff_le,
    UInt32.le_iff_toNat_le, Char.toNat_val] at digit
  simp only [outsiders, List.mem_cons]
  simp at digit
  omega

theorem ne_of_start {c d : Char} (h : isIdentifierStart c = true)
    (hd : isIdentifierStart d = false) : c ≠ d := by
  rintro rfl
  rw [h] at hd
  contradiction

theorem isIdentifierPart_of_start {c : Char} (h : isIdentifierStart c = true) :
    isIdentifierPart c = true := by
  simp only [isIdentifierStart, isIdentifierPart, isAsciiNameStart, isAsciiNamePart,
    Char.isAlphanum, Bool.or_eq_true, Bool.and_eq_true] at h ⊢
  tauto

theorem isIdentifierPart_ne_backslash {c : Char} (h : isIdentifierPart c = true) : c ≠ '\\' := by
  rintro rfl
  revert h
  decide

/-! ### White space -/

/-- Whether a text begins neither with white space nor with a comment. -/
def StartsSolid (text : List Char) : Prop :=
  ∀ fuel (t : Trivia), t.cursor.rest = text → skipTrivia false (fuel + 1) t = .ok t

theorem startsSolid_cons {c : Char} (slash : c ≠ '/') (ends : isLineEnd c = false)
    (space : isSpace c = false) (rest : List Char) : StartsSolid (c :: rest) := by
  rintro fuel ⟨⟨text, offset⟩, gap, newline⟩ h
  obtain rfl : text = c :: rest := h
  have breaks : (c == '\n' || c == '\r') = false := by
    simp only [isLineEnd, Bool.or_eq_false_iff] at ends ⊢
    exact ends.1.1
  unfold skipTrivia
  split
  · simp_all
  · simp_all
  · simp_all
  · rename_i d tail _ _ eq
    obtain ⟨rfl, rfl⟩ := List.cons.inj eq
    simp only [breaks, ends, space, Bool.false_and, Bool.false_eq_true, if_false]

/-! ### Lexemes -/

/-- The lexeme that a text begins with, and the text behind it. -/
structure Begins (text : List Char) (lexeme : Lexeme) (rest : List Char) : Prop where
  solid : StartsSolid text
  shorter : rest.length < text.length
  lexemeAt : ∀ fuel offset, text.length < fuel →
    ∃ stop, lexemeAt fuel ⟨text, offset⟩ = .ok (lexeme, ⟨rest, stop⟩)

/-- No word goes on with the beginning of a text. -/
def EndsWord (rest : List Char) : Prop :=
  ∀ c ∈ rest.head?, isIdentifierPart c = false ∧ c ≠ '\\'

theorem endsWord_cons {c : Char} (part : isIdentifierPart c = false) (back : c ≠ '\\')
    (rest : List Char) : EndsWord (c :: rest) := by
  intro d h
  obtain rfl : c = d := by simpa using h
  exact ⟨part, back⟩

theorem wordRest_append (w rest : List Char) (hw : ∀ c ∈ w, isIdentifierPart c = true)
    (hrest : EndsWord rest) (fuel : Nat) (hfuel : w.length ≤ fuel) (acc : List Char)
    (offset : Nat) :
    ∃ stop, wordRest fuel acc false ⟨w ++ rest, offset⟩ =
      some (w.reverse ++ acc, false, ⟨rest, stop⟩) := by
  induction w generalizing fuel acc offset with
  | nil =>
      refine ⟨offset, ?_⟩
      cases fuel with
      | zero => rfl
      | succ fuel =>
          cases rest with
          | nil => rfl
          | cons c rest =>
              obtain ⟨part, back⟩ := hrest c rfl
              unfold wordRest
              split <;> simp_all
  | cons c w ih =>
      obtain ⟨hc, hw⟩ := List.forall_mem_cons.mp hw
      cases fuel with
      | zero => simp at hfuel
      | succ fuel =>
          have back := isIdentifierPart_ne_backslash hc
          obtain ⟨stop, hstop⟩ := ih hw fuel (by simpa using hfuel) (c :: acc) (offset + byteWidth c)
          refine ⟨stop, ?_⟩
          rw [wordRest]
          simp [back, hc, hstop]

/-- A word, as far as it goes. -/
theorem begins_word {c : Char} {w rest : List Char} (start : isIdentifierStart c = true)
    (parts : ∀ d ∈ w, isIdentifierPart d = true) (ends : EndsWord rest) :
    Begins (c :: w ++ rest) (.word (String.ofList (c :: w)) false) rest where
  solid := startsSolid_cons (ne_of_start start (by decide)) (isLineEnd_of_start start)
    (isSpace_of_start start) _
  shorter := by simp only [List.length_append, List.length_cons]; omega
  lexemeAt := by
    intro fuel offset hfuel
    have all : ∀ d ∈ c :: w, isIdentifierPart d = true :=
      List.forall_mem_cons.mpr ⟨isIdentifierPart_of_start start, parts⟩
    simp only [List.length_append] at hfuel
    obtain ⟨stop, hstop⟩ := wordRest_append (c :: w) rest all ends fuel (by omega) [] offset
    refine ⟨stop, ?_⟩
    rw [lexemeAt]
    simp only [List.cons_append] at hstop ⊢
    simp [ne_of_start start (d := '"') (by decide), ne_of_start start (d := '\'') (by decide),
      ne_of_start start (d := '\x60') (by decide), ne_of_start start (d := '.') (by decide),
      ne_of_start start (d := '#') (by decide), isDigit_of_start start, start, hstop]

/-- The marks that snippets are made of, apart from the dot. -/
def plainMarks : List Char :=
  ['\x7b', '\x7d', '(', ')', '[', ']', ';', ',', ':', '=', '+']

private theorem plainMarks_solid :
    ∀ c ∈ plainMarks, c ≠ '/' ∧ isLineEnd c = false ∧ isSpace c = false := by
  -- over the list of marks, not over the finite type of all characters
  refine List.all_iff_forall_prop.mp ?_
  decide

private theorem plainMarks_other :
    ∀ c ∈ plainMarks, c ≠ '"' ∧ c ≠ '\'' ∧ c ≠ '\x60' ∧ c.isDigit = false ∧ c ≠ '.' ∧ c ≠ '#'
      ∧ isIdentifierStart c = false ∧ c ≠ '\\' ∧ String.singleton c ≠ "?." := by
  refine List.all_iff_forall_prop.mp ?_
  decide

/-- A mark of one character that is part of no longer mark here. -/
theorem begins_mark {c : Char} {rest : List Char} (plain : c ∈ plainMarks)
    (mark : markAt? (c :: rest) = some (String.singleton c)) :
    Begins (c :: rest) (.mark (String.singleton c)) rest where
  solid := by
    obtain ⟨slash, ends, space⟩ := plainMarks_solid c plain
    exact startsSolid_cons slash ends space rest
  shorter := by simp
  lexemeAt := by
    intro fuel offset _
    obtain ⟨double, single, back, digit, dot, hash, start, slash, link⟩ :=
      plainMarks_other c plain
    refine ⟨offset + byteWidth c, ?_⟩
    rw [lexemeAt]
    simp [double, single, back, digit, dot, hash, start, slash, mark, link, Cursor.skip]

/-- A dot in front of a word. -/
theorem begins_dot {c : Char} {rest : List Char} (start : isIdentifierStart c = true) :
    Begins ('.' :: c :: rest) (.mark ".") (c :: rest) where
  solid := startsSolid_cons (by decide) (by decide) (by decide) _
  shorter := by simp
  lexemeAt := by
    intro fuel offset _
    have dot : ('.' == c) = false := by simpa using (ne_of_start start (by decide)).symm
    have mark : markAt? ('.' :: c :: rest) = some "." := by
      simp [markAt?, marks, List.isPrefixOf, dot]
    refine ⟨offset + byteWidth '.', ?_⟩
    rw [lexemeAt]
    simp [isDigit_of_start start, mark, show isIdentifierStart '.' = false by decide]
    rfl

/-! ### Strings -/

/-- The element that an escape stands for, unless it can be the first half of a pair. -/
theorem unicodeElement?_of_not_lead {fuel n : Nat} {cs rest : List Char}
    (lead : isLeadSurrogate n = false) (read : unicodeEscape? fuel cs = some (n, rest)) :
    unicodeElement? fuel cs = some (.ofNat n, rest) := by
  simp only [unicodeElement?, read, Option.bind_eq_bind, Option.bind_some, lead, Bool.false_and,
    Bool.false_eq_true, if_false]
  split
  · split <;> rfl
  · rfl

/-- The element that an escape of a control character stands for. -/
theorem unicodeElement?_control {fuel n : Nat} {cs rest : List Char} (control : n < 0x20)
    (read : unicodeEscape? fuel cs = some (n, rest)) :
    unicodeElement? fuel cs = some (.char (Char.ofNat n), rest) := by
  have lead : isLeadSurrogate n = false := by simp [isLeadSurrogate]; omega
  have trail : isTrailSurrogate n = false := by simp [isTrailSurrogate]; omega
  rw [unicodeElement?_of_not_lead lead read]
  simp [StringElement.ofNat, lead, trail]

/-- The escapes of control characters. -/
theorem escape?_control {c : Char} (control : c.toNat < 0x20) (fuel offset : Nat)
    (rest : List Char) :
    ∃ stop, escape? fuel true ⟨'u' :: fourHexDigits c.toNat ++ rest, offset⟩ =
      some ([.char c], ⟨rest, stop⟩) := by
  have read : unicodeEscape? fuel (fourHexDigits c.toNat ++ rest) = some (c.toNat, rest) := by
    generalize c.toNat = n at control
    interval_cases n <;> rfl
  have element := unicodeElement?_control control read
  rw [Char.ofNat_toNat] at element
  simp only [List.cons_append, escape?, element]
  exact ⟨_, rfl⟩

/-- Reading goes on behind one character that is written into a string. -/
theorem stringRest_quotedChar (c : Char) (rest : List Char) (fuel : Nat)
    (acc : List StringElement) (offset : Nat) :
    ∃ stop, stringRest '"' (fuel + 1) acc ⟨quotedChar c ++ rest, offset⟩ =
      stringRest '"' fuel (.char c :: acc) ⟨rest, stop⟩ := by
  unfold quotedChar
  split_ifs with double back b f n r t control
  · exact ⟨_, by subst double; rfl⟩
  · exact ⟨_, by subst back; rfl⟩
  · exact ⟨_, by subst b; rfl⟩
  · exact ⟨_, by subst f; rfl⟩
  · exact ⟨_, by subst n; rfl⟩
  · exact ⟨_, by subst r; rfl⟩
  · exact ⟨_, by subst t; rfl⟩
  · obtain ⟨stop, eq⟩ := escape?_control control fuel (offset + byteWidth '\\') rest
    refine ⟨stop, ?_⟩
    rw [stringRest]
    simp only [List.cons_append] at eq ⊢
    simp [eq]
  · refine ⟨offset + byteWidth c, ?_⟩
    rw [stringRest]
    simp [double, back, n, r]

theorem stringRest_quotedChars (cs rest : List Char) (fuel : Nat) (hfuel : cs.length < fuel)
    (acc : List StringElement) (offset : Nat) :
    ∃ stop, stringRest '"' fuel acc ⟨cs.flatMap quotedChar ++ '"' :: rest, offset⟩ =
      some ((cs.map StringElement.char).reverse ++ acc, ⟨rest, stop⟩) := by
  induction cs generalizing fuel acc offset with
  | nil =>
      obtain ⟨fuel, rfl⟩ := Nat.exists_eq_add_one.mpr hfuel
      exact ⟨_, rfl⟩
  | cons c cs ih =>
      obtain ⟨fuel, rfl⟩ := Nat.exists_eq_add_one.mpr (Nat.zero_lt_of_lt hfuel)
      rw [List.flatMap_cons, List.append_assoc]
      obtain ⟨here, eq⟩ := stringRest_quotedChar c (cs.flatMap quotedChar ++ '"' :: rest) fuel acc
        offset
      obtain ⟨stop, eq'⟩ := ih fuel (by simpa using hfuel) (.char c :: acc) here
      exact ⟨stop, by rw [eq, eq']; simp⟩

theorem ofUnits_map_char (cs : List Char) :
    StringValue.ofUnits (cs.map StringElement.char) = .ofString (String.ofList cs) := by
  have whole : (cs.map StringElement.char).any StringElement.isLone = false := by
    simp [StringElement.isLone]
  simp [StringValue.ofUnits, whole, StringValue.ofString, List.flatMap_map]

theorem length_le_flatMap_quotedChar (cs : List Char) :
    cs.length ≤ (cs.flatMap quotedChar).length := by
  have one (c : Char) : 1 ≤ (quotedChar c).length := by
    unfold quotedChar
    split_ifs <;> simp
  induction cs with
  | nil => simp
  | cons c cs ih =>
      have := one c
      simp only [List.flatMap_cons, List.length_append, List.length_cons]
      omega

/-- A string as it is written into code. -/
theorem begins_quoted (cs rest : List Char) :
    Begins (quotedChars cs ++ rest) (.string (.ofString (String.ofList cs))) rest where
  solid := startsSolid_cons (by decide) (by decide) (by decide) _
  shorter := by simp [quotedChars]; omega
  lexemeAt := by
    intro fuel offset hfuel
    have long := length_le_flatMap_quotedChar cs
    simp only [quotedChars, List.length_append, List.length_cons] at hfuel
    obtain ⟨stop, eq⟩ := stringRest_quotedChars cs rest fuel (by omega) [] (offset + byteWidth '"')
    refine ⟨stop, ?_⟩
    rw [lexemeAt]
    simp [quotedChars, eq, ofUnits_map_char]

/-! ### Whole texts -/

/-- The words that may begin a line of a made-up text.  None of them stands where the end of a line
would end a statement. -/
def lineWords : List String := ["import", "const", "if", "get"]

/-- Whether some lexemes begin with a word that may begin a line. -/
def BeginsLine (lexemes : List Lexeme) : Prop :=
  ∃ n ∈ lineWords, lexemes.head? = some (.word n false)

/-- Whether a text, blanks aside, consists of some lexemes. -/
inductive Spells : List Char → List Lexeme → Prop where
  | done : Spells [] []
  | space {text : List Char} {lexemes : List Lexeme} (rest : Spells text lexemes) :
      Spells (' ' :: text) lexemes
  | newline {text : List Char} {lexemes : List Lexeme} (begins : BeginsLine lexemes)
      (rest : Spells text lexemes) : Spells ('\n' :: text) lexemes
  | lexeme {text rest : List Char} {lexeme : Lexeme} {lexemes : List Lexeme}
      (first : Begins text lexeme rest) (rest : Spells rest lexemes) :
      Spells text (lexeme :: lexemes)

/-- Whether a gap between two tokens holds no comment. -/
def CommentGap.IsQuiet (gap : CommentGap) : Prop := gap.pending = [] ∧ gap.settled = []

theorem CommentGap.isQuiet_after (lineMayTrail : Bool) :
    (CommentGap.after lineMayTrail).IsQuiet := ⟨rfl, rfl⟩

theorem CommentGap.isQuiet_atStart : CommentGap.atStart.IsQuiet := ⟨rfl, rfl⟩

theorem CommentGap.IsQuiet.newline {gap : CommentGap} (quiet : gap.IsQuiet) :
    gap.newline.IsQuiet := by
  obtain ⟨pending, settled⟩ := quiet
  simp [CommentGap.newline, CommentGap.IsQuiet, pending, settled]

theorem CommentGap.IsQuiet.makes {gap : CommentGap} (quiet : gap.IsQuiet) (note : CommentNote) :
    gap.makes note = false := by
  simp [CommentGap.makes, quiet.1, quiet.2]

theorem CommentGap.IsQuiet.close {gap : CommentGap} (quiet : gap.IsQuiet) (offset : Nat) :
    gap.close offset = [] := by
  simp [CommentGap.close, quiet.1, quiet.2]

/-- The first token of a spelled text is its first lexeme; behind it the others are spelled. -/
inductive Spells.Solid : List Char → List Lexeme → Prop where
  | done : Solid [] []
  | lexeme {text rest : List Char} {lexeme : Lexeme} {lexemes : List Lexeme}
      (first : Begins text lexeme rest) (rest : Spells rest lexemes) :
      Solid text (lexeme :: lexemes)

/-- Skipping blanks leads to a token. -/
theorem Spells.skipTrivia {text : List Char} {lexemes : List Lexeme} (h : Spells text lexemes)
    {fuel : Nat} (hfuel : text.length < fuel) {gap : CommentGap} (quiet : gap.IsQuiet)
    (offset : Nat) (newline : Bool) :
    ∃ t : Trivia, skipTrivia false fuel ⟨⟨text, offset⟩, gap, newline⟩ = .ok t ∧
      t.gap.IsQuiet ∧ Solid t.cursor.rest lexemes ∧ t.cursor.rest.length ≤ text.length ∧
      (t.newline = true → newline = true ∨ BeginsLine lexemes) := by
  induction h generalizing fuel gap offset newline with
  | done =>
      obtain ⟨fuel, rfl⟩ := Nat.exists_eq_add_one.mpr hfuel
      exact ⟨_, rfl, quiet, .done, le_refl _, .inl⟩
  | @space text lexemes rest ih =>
      obtain ⟨fuel, rfl⟩ := Nat.exists_eq_add_one.mpr (Nat.zero_lt_of_lt hfuel)
      obtain ⟨t, eq, gapQuiet, solid, shorter, line⟩ :=
        ih (by simpa using hfuel) quiet (offset + byteWidth ' ') newline
      exact ⟨t, eq, gapQuiet, solid, Nat.le_succ_of_le shorter, line⟩
  | @newline text lexemes begins rest ih =>
      obtain ⟨fuel, rfl⟩ := Nat.exists_eq_add_one.mpr (Nat.zero_lt_of_lt hfuel)
      obtain ⟨t, eq, gapQuiet, solid, shorter, -⟩ :=
        ih (by simpa using hfuel) quiet.newline (offset + byteWidth '\n') true
      exact ⟨t, eq, gapQuiet, solid, Nat.le_succ_of_le shorter, fun _ => .inr begins⟩
  | @lexeme text after lexeme lexemes first rest =>
      obtain ⟨fuel, rfl⟩ := Nat.exists_eq_add_one.mpr (Nat.zero_lt_of_lt hfuel)
      exact ⟨_, first.solid fuel _ rfl, quiet, .lexeme first rest, le_refl _, .inl⟩

/-- Every lexeme takes up some of the text. -/
theorem Spells.length_le {text : List Char} {lexemes : List Lexeme} (h : Spells text lexemes) :
    lexemes.length ≤ text.length := by
  induction h with
  | done => exact le_refl _
  | space rest ih => exact Nat.le_succ_of_le ih
  | newline _ rest ih => exact Nat.le_succ_of_le ih
  | lexeme first rest ih => exact Nat.succ_le_of_lt (Nat.lt_of_le_of_lt ih first.shorter)

/-- The token that is read at the beginning of a spelled text. -/
theorem Spells.tokenAfter {text : List Char} {lexemes : List Lexeme} (h : Spells text lexemes)
    {fuel : Nat} (hfuel : text.length < fuel) {gap : CommentGap} (quiet : gap.IsQuiet)
    (offset : Nat) :
    ∃ (token : Token) (here : List Char) (after : Cursor),
      Parser.tokenAfter false fuel gap ⟨text, offset⟩ = (token, here, after, []) ∧
      token.lexeme = lexemes.headD .endOfText ∧ token.notesPureCall = false ∧
      token.notesPureFunction = false ∧ Spells after.rest lexemes.tail ∧
      after.rest.length ≤ text.length ∧ (token.afterNewline = true → BeginsLine lexemes) := by
  obtain ⟨⟨⟨body, start⟩, gap', newline⟩, eq, gapQuiet, solid, shorter, line⟩ :=
    h.skipTrivia hfuel quiet offset false
  simp only [Bool.false_eq_true, false_or] at line
  have call := gapQuiet.makes .pureCall
  have function := gapQuiet.makes .pureFunction
  have close := gapQuiet.close start
  simp only at solid shorter call function close
  cases solid with
  | done =>
      simp only [Parser.tokenAfter, eq, close]
      exact ⟨_, _, _, rfl, rfl, call, function, .done, Nat.zero_le _, line⟩
  | @lexeme _ rest lexeme lexemes first more =>
      obtain ⟨stop, read⟩ := first.lexemeAt fuel start (Nat.lt_of_le_of_lt shorter hfuel)
      simp only [Parser.tokenAfter, eq, close, read]
      exact ⟨_, _, _, rfl, rfl, call, function, more, le_trans first.shorter.le shorter, line⟩

end ComponentLowering.Syntax
