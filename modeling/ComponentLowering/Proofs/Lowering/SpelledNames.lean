/-
# Names that are read back

A name is a text of any characters.  Where it is written into made-up code, it stands as it is if it is a
name of ASCII letters, digits, underscores and dollar signs, and as a string otherwise.  A string is one
literal of the language and of JSON, whatever characters it is made of and whatever stands behind it, so
nothing of a name gets out of its place.  A key of an object, a key of a class and an access to a member
are read as the name that they were made from.

The name that a key is read as is the one that the text says.  What an object or a class does with some
names, such as `__proto__` or `constructor`, is another matter.
-/
import ComponentLowering.Proofs.Json.WantedValues
import ComponentLowering.Proofs.Lowering.CarriedStrings

namespace ComponentLowering.Code

open ComponentLowering.Lowering ComponentLowering.Style ComponentLowering.Syntax
open ComponentLowering.Syntax.Parser ComponentLowering.Text

variable {c : Char} {n : Nat} {one body rest : List Char} {v object : String} {e : Expr}

/-! ### Escapes -/

/-- The characters of a text that belong to no escape.  A backslash that escapes nothing is one of them. -/
def unescaped : List Char → List Char
  | [] => []
  | '\\' :: _ :: rest => unescaped rest
  | c :: rest => c :: unescaped rest

theorem unescaped_cons (back : c ≠ '\\') (rest : List Char) :
    unescaped (c :: rest) = c :: unescaped rest := by
  rw [unescaped]
  exact fun _ _ eq => absurd eq back

/-- A hexadecimal digit ends neither a string nor a line, and it escapes nothing. -/
theorem visible_of_isHexDigit (digit : Json.IsHexDigit c n) :
    0x20 ≤ c.toNat ∧ c ≠ '"' ∧ c ≠ '\\' := by
  obtain ⟨small, eq⟩ := digit
  interval_cases n <;> rcases eq with rfl | rfl <;> decide

/-- What a character or an escape of a JSON string adds to what is not escaped. -/
theorem unescaped_append (unit : Json.IsUnit one) (rest : List Char) :
    ∃ plain, unescaped (one ++ rest) = plain ++ unescaped rest ∧
      ∀ c ∈ plain, c ≠ '"' ∧ c ≠ '\\' := by
  cases unit with
  | @plain c _ quote back => exact ⟨[c], unescaped_cons back rest, by simpa using ⟨quote, back⟩⟩
  | simple => exact ⟨[], rfl, by simp⟩
  | hex digits =>
      obtain ⟨hw, hx, hy, hz⟩ := digits
      have w := visible_of_isHexDigit hw
      have x := visible_of_isHexDigit hx
      have y := visible_of_isHexDigit hy
      have z := visible_of_isHexDigit hz
      refine ⟨[_, _, _, _], ?_, by simpa using ⟨w.2, x.2, y.2, z.2⟩⟩
      rw [List.cons_append, List.cons_append, unescaped]
      simp only [List.cons_append, List.nil_append, unescaped_cons w.2.2, unescaped_cons x.2.2,
        unescaped_cons y.2.2, unescaped_cons z.2.2]

theorem visible_of_isUnit (unit : Json.IsUnit one) : ∀ c ∈ one, 0x20 ≤ c.toNat := by
  cases unit with
  | plain visible => simpa using visible
  | @simple e c known =>
      have all : ∀ p ∈ Json.simpleEscapes, 0x20 ≤ p.1.toNat := by decide
      refine List.forall_mem_cons.mpr ⟨by decide, ?_⟩
      simpa using all _ known
  | hex digits =>
      obtain ⟨hw, hx, hy, hz⟩ := digits
      refine List.forall_mem_cons.mpr ⟨by decide, List.forall_mem_cons.mpr ⟨by decide, ?_⟩⟩
      simpa using ⟨(visible_of_isHexDigit hw).1, (visible_of_isHexDigit hx).1,
        (visible_of_isHexDigit hy).1, (visible_of_isHexDigit hz).1⟩

/-- Whether a text, between quotes, is all of one literal on one line. -/
structure IsClosed (body : List Char) : Prop where
  quotes : '"' ∉ unescaped body
  backslashes : '\\' ∉ unescaped body
  lineFeeds : '\n' ∉ body
  returns : '\r' ∉ body

theorem isClosed_of_isBody (h : Json.IsBody body) : IsClosed body := by
  induction h with
  | nil => exact ⟨by decide, by decide, by decide, by decide⟩
  | cons unit _ ih =>
      obtain ⟨plain, eq, other⟩ := unescaped_append unit _
      have visible := visible_of_isUnit unit
      constructor
      · rw [eq, List.mem_append]
        exact fun mem => mem.elim (fun here => (other _ here).1 rfl) ih.quotes
      · rw [eq, List.mem_append]
        exact fun mem => mem.elim (fun here => (other _ here).2 rfl) ih.backslashes
      · rw [List.mem_append]
        exact fun mem => mem.elim (fun here => absurd (visible _ here) (by decide)) ih.lineFeeds
      · rw [List.mem_append]
        exact fun mem => mem.elim (fun here => absurd (visible _ here) (by decide)) ih.returns

/-! ### Strings -/

theorem isFourHex_fourHexDigits (small : n < 0x10000) : Json.IsFourHex (fourHexDigits n) n := by
  have digit (m : Nat) : Json.IsHexDigit (hexDigit m) (m % 16) :=
    ⟨Nat.mod_lt m (by decide), .inl rfl⟩
  have whole : n / 4096 % 16 * 4096 + n / 256 % 16 * 256 + n / 16 % 16 * 16 + n % 16 = n := by omega
  have digits := Json.IsFourHex.digits (digit (n / 4096)) (digit (n / 256)) (digit (n / 16)) (digit n)
  rw [whole] at digits
  exact digits

theorem spellsChar_quotedChar (c : Char) : Json.SpellsChar c (quotedChar c) := by
  unfold quotedChar
  split_ifs with quote back b f n r t control
  all_goals first | subst_vars; exact .simple (by decide) | skip
  · exact .hex (isFourHex_fourHexDigits (Nat.lt_trans control (by decide)))
  · exact .plain (Nat.le_of_not_lt control) quote back

theorem spells_flatMap_quotedChar (cs : List Char) : Json.Spells cs (cs.flatMap quotedChar) := by
  induction cs with
  | nil => exact .nil
  | cons c cs ih => exact .cons (spellsChar_quotedChar c) ih

/-- Whether a text is one literal for a string, in the language and in JSON. -/
structure IsLiteralOf (text : List Char) (v : String) : Prop where
  /-- The quotes around it are the only ones that are not escaped. -/
  closed : ∃ body, text = '"' :: (body ++ ['"']) ∧ IsClosed body
  /-- In the language it is the first token, whatever follows, and stands for the string. -/
  token : ∀ rest, Begins (text ++ rest) (.string (.ofString v)) rest
  /-- In JSON it is a string, the characters of which spell it. -/
  spelled : ∃ body, text = Json.quoted body ∧ Json.Spells v.toList body
  /-- A reader of JSON takes all of it, whatever follows, as the string. -/
  value : ∀ expected rest, Json.Reads (Json.Reader.string expected) (text ++ rest) v rest

theorem isLiteralOf_quote (v : String) : IsLiteralOf (quote v).toList v := by
  have eq : (quote v).toList = quotedChars v.toList := by rw [quote, String.toList_ofList]
  have spells := spells_flatMap_quotedChar v.toList
  rw [eq]
  constructor
  · exact ⟨_, by simp [quotedChars], isClosed_of_isBody spells.isBody⟩
  · intro rest
    have begins := begins_quoted v.toList rest
    rwa [String.ofList_toList] at begins
  · exact ⟨_, rfl, spells⟩
  · intro expected rest
    have reads := @Json.reads_string _ [] rest _ expected spells (by simp [Json.IsBlank])
    rwa [String.ofList_toList] at reads

/-! ### Plain names -/

/-- An ASCII letter, an underscore or a dollar sign. -/
def IsNameStart (c : Char) : Prop := ('a' ≤ c ∧ c ≤ 'z') ∨ ('A' ≤ c ∧ c ≤ 'Z') ∨ c = '_' ∨ c = '$'

/-- Whether a name is an identifier of ASCII characters. -/
structure IsAsciiName (v : String) : Prop where
  start : ∃ c ∈ v.toList.head?, IsNameStart c
  parts : ∀ c ∈ v.toList, IsNameStart c ∨ ('0' ≤ c ∧ c ≤ '9')

theorem isAsciiNameStart_iff : isAsciiNameStart c = true ↔ IsNameStart c := by
  have letter : c.isAlpha = true ↔ ('a' ≤ c ∧ c ≤ 'z') ∨ ('A' ≤ c ∧ c ≤ 'Z') := by
    rw [isAlpha_iff_toNat, or_comm]
    simp [Char.le_def, UInt32.le_iff_toNat_le]
  simp only [isAsciiNameStart, IsNameStart, letter, Bool.or_eq_true, beq_iff_eq]
  tauto

theorem isAsciiNamePart_iff : isAsciiNamePart c = true ↔ IsNameStart c ∨ ('0' ≤ c ∧ c ≤ '9') := by
  rw [← isAsciiNameStart_iff]
  simp only [isAsciiNamePart, isAsciiNameStart, Char.isAlphanum, Char.isDigit, Bool.or_eq_true,
    Bool.and_eq_true, decide_eq_true_eq, Char.le_def, ge_iff_le]
  tauto

theorem isIdentifierName_iff : isIdentifierName v = true ↔ IsAsciiName v := by
  cases eq : v.toList with
  | nil =>
      refine iff_of_false (by simp [isIdentifierName, eq]) fun name => ?_
      obtain ⟨c, mem, -⟩ := name.start
      rw [eq] at mem
      cases mem
  | cons c rest =>
      rw [isIdentifierName_cons_iff eq]
      constructor
      · rintro ⟨start, parts⟩
        have start' := isAsciiNameStart_iff.mp start
        constructor
        · exact ⟨c, by rw [eq]; rfl, start'⟩
        · rw [eq]
          exact List.forall_mem_cons.mpr ⟨.inl start', fun d hd => isAsciiNamePart_iff.mp (parts d hd)⟩
      · rintro ⟨⟨d, mem, start⟩, parts⟩
        rw [eq] at mem parts
        obtain rfl : c = d := Option.some.inj mem
        exact ⟨isAsciiNameStart_iff.mpr start,
          fun d hd => isAsciiNamePart_iff.mpr (parts d (.tail _ hd))⟩

instance (v : String) : Decidable (IsAsciiName v) := decidable_of_iff _ isIdentifierName_iff

example : IsAsciiName "$name" ∧ ¬ IsAsciiName "name\n" ∧ ¬ IsAsciiName "" := by decide

theorem length_quote (v : String) : v.toList.length < (quote v).toList.length := by
  have longer := length_le_flatMap_quotedChar v.toList
  rw [quote, String.toList_ofList, quotedChars, List.length_append, List.length_cons]
  omega

/-- A name is written as it is exactly if it is plain: what is written otherwise is longer. -/
theorem propertyKey_eq_iff : Code.propertyKey v = v ↔ IsAsciiName v := by
  rw [← isIdentifierName_iff]
  unfold Code.propertyKey
  split
  · rename_i plain
    exact iff_of_true rfl plain
  · rename_i plain
    refine iff_of_false (fun eq => ?_) plain
    have longer := length_quote v
    rw [eq] at longer
    exact Nat.lt_irrefl _ longer

theorem memberKey_eq_iff : Code.memberKey v = v ↔ IsAsciiName v := by
  rw [← isIdentifierName_iff]
  unfold Code.memberKey
  split
  · rename_i plain
    exact iff_of_true rfl plain
  · rename_i plain
    refine iff_of_false (fun eq => ?_) plain
    have longer := length_quote v
    have lengths := congrArg (·.toList.length) eq
    simp only [String.toList_append, List.length_append] at lengths
    omega

theorem memberAccess_eq_iff : Code.memberAccess object v = object ++ "." ++ v ↔ IsAsciiName v := by
  rw [← isIdentifierName_iff]
  unfold Code.memberAccess
  split
  · rename_i plain
    exact iff_of_true rfl plain
  · rename_i plain
    refine iff_of_false (fun eq => ?_) plain
    -- behind the object there is a bracket in one text and a dot in the other
    have texts := congrArg String.toList eq
    simp at texts

/-! ### Names in their places -/

/-- Whether a parser, wherever a text stands in front of what no word goes on with, reads it up to its end
and as something of a certain kind. -/
def IsReadBy {α : Type} (p : Parser α) (text : String) (good : α → Prop) : Prop :=
  ∀ c, Surroundings.IsOrdinary c → ∀ rest lexemes, EndsWord rest → Spells rest lexemes →
    ∃ here, Spells (text.toList ++ rest) (here ++ lexemes) ∧ Takes p c (here ++ lexemes) lexemes good

theorem writtenKey?_detach (k : Key) : writtenKey? k.detach = writtenKey? k := by
  cases k with
  | computed e => cases e <;> rfl
  | _ => rfl

theorem propertyKey_isReadBy (r : Rules) (v : String) :
    IsReadBy (Parser.propertyKey r) (Code.propertyKey v) (writtenKey? · = some (.ofString v)) := by
  intro c _ rest lexemes ends h
  refine ⟨[keyLexeme v], spells_propertyKey v ends h, ?_⟩
  refine (takes_propertyKey (keyForms v)).imp fun k eq => ?_
  rw [← writtenKey?_detach, eq, writtenKey?_keyTree]

theorem memberKey_isReadBy (depth : Nat) (words : List String) (v : String) :
    IsReadBy (Parser.memberKey (rules (depth + 4)) words) (Code.memberKey v)
      (writtenKey? · = some (.ofString v)) := by
  intro c ordinary rest lexemes ends h
  have short : (keyLexemes v).length ≤ depth + 3 := by
    unfold keyLexemes
    split <;> simp
  refine ⟨keyLexemes v, spells_key v rest lexemes ends h, ?_⟩
  refine (takes_memberKey (forms_key v) short ordinary).imp fun k eq => ?_
  rw [← writtenKey?_detach, eq, writtenKey?_getterKey]

/-- The object and the name of an access to a member, by a name or by a string. -/
def accessOf? : Expr → Option (Expr × StringValue)
  | .member _ object property false => some (object, .ofString property.name)
  | .index _ object (.string _ v) false => some (object, v)
  | _ => none

/-- Whether a text is read as an operand wherever it stands, so that accesses and calls may follow. -/
def IsOperand (text : String) (e : Expr) : Prop :=
  ∃ lexemes, SpellsPhrase text lexemes ∧
    ∀ depth, lexemes.length ≤ depth → ReadsAs (rules depth) .operand lexemes e

/-- An access is made to whatever object stands in front of it, and is an operand again. -/
theorem memberAccess_isOperand (h : IsOperand object e) (v : String) :
    ∃ access, accessOf? access = some (e, .ofString v) ∧
      IsOperand (Code.memberAccess object v) access := by
  obtain ⟨lexemes, spells, reads⟩ := h
  unfold Code.memberAccess
  split
  · rename_i plain
    refine ⟨.member .detached e ⟨.detached, v⟩ false, rfl, lexemes ++ [.mark ".", .word v false], ?_, ?_⟩
    · intro rest more ends behind
      have name := behind.dotWord (isWordText_of_isIdentifierName plain) ends
      have whole := spells _ _ (endsWord_cons (by decide) (by decide) _) name
      simpa using whole
    · intro depth hdepth
      rw [List.length_append] at hdepth
      exact readsAs_member (reads depth (by omega)) v
  · refine ⟨.index .detached e (.string .detached (.ofString v)) false, rfl,
      lexemes ++ .mark "[" :: ([.string (.ofString v)] ++ [.mark "]"]), ?_, ?_⟩
    · intro rest more _ behind
      have key := ((behind.mark (c := ']') (m := "]") (by decide)).string v).mark (c := '[')
        (m := "[") (by decide)
      have whole := spells _ _ (endsWord_cons (by decide) (by decide) _) key
      simpa using whole
    · intro depth hdepth
      simp only [List.length_append, List.length_cons] at hdepth
      obtain ⟨depth, rfl⟩ := Nat.exists_eq_add_one.mpr (show 0 < depth by omega)
      have string : Forms .sum [.string (.ofString v)] (.string .detached (.ofString v)) :=
        .single (.string _)
      exact readsAs_index (reads _ (by omega)) fun c ordinary tail ends =>
        string.takes (by simp; omega) ordinary ends

example : IsOperand "this" (.this .detached) :=
  ⟨[.word "this" false], fun _ _ ends behind => behind.word (by decide) ends, Forms.this.readsAs⟩

/-! ### Snippets with a name in them -/

/-- A text that is one statement, an expression that begins with `this`. -/
theorem statements_of_this {text : String} {more : List Lexeme}
    (spells : Spells text.toList (.word "this" false :: (more ++ [.mark ";"])))
    (begins : ∃ behind, text.toList = "this".toList ++ behind)
    (opens : Opens (.word "this" false :: (more ++ [.mark ";"])))
    (value : ∀ c, Surroundings.IsOrdinary c → Takes (rules (text.toList.length + 3)).assignment c
      (.word "this" false :: (more ++ [.mark ";"])) [.mark ";"] (·.detach = e)) :
    statements text = .ok [.expression .detached e] := by
  have plainly : BeginsPlainly text.toList := by
    obtain ⟨behind, eq⟩ := begins
    rw [eq]
    exact beginsPlainly_word (by decide) behind
  refine statements_eq spells plainly rfl (.more (.inl ⟨_, rfl⟩) (by simp) ?_ .done)
  rw [statement_rules]
  exact takes_statementRule_value beginsValue_this opens rfl ⟨rfl, rfl⟩ value

theorem spells_semicolon : Spells [';'] [.mark ";"] := Spells.done.mark (by decide)

theorem endsWord_semicolon : EndsWord [';'] := endsWord_cons (by decide) (by decide) []

/-- An access to a member of the instance, as a statement. -/
theorem statements_memberAccess (v : String) :
    statements (Code.memberAccess "this" v ++ ";") = .ok [.expression .detached (instanceTree v)] := by
  obtain ⟨more, eq⟩ : ∃ more, instanceLexemes v = .word "this" false :: more := ⟨_, rfl⟩
  have spells := spells_instance v _ _ endsWord_semicolon spells_semicolon
  have forms := forms_instance v
  have begins : ∃ behind, (Code.memberAccess "this" v ++ ";").toList = "this".toList ++ behind := by
    unfold Code.memberAccess
    split <;> exact ⟨_, by simp; rfl⟩
  have long := spells.length_le
  rw [eq] at spells forms long
  have ends : BeginsWith [";"] [.mark ";"] := ⟨";", by decide, rfl⟩
  refine statements_of_this (by simpa using spells) begins ?_ fun c ordinary => ?_
  · exact forms.opens _ (ends.imp (by decide)) (by simp)
  · refine forms.single.takes ?_ ordinary (ends.imp (by decide))
    simp at long ⊢
    omega

/-- An object with one member, the value of which is of no interest. -/
def lonelyMember (v : String) : MadeMember where
  key := keyLexeme v
  keyTree := keyTree v
  lexemes := [.word "this" false]
  value := .this .detached

/-- An object with one member, as a value that is assigned. -/
theorem statements_propertyKey (v : String) :
    statements ("this.o = \x7b " ++ Code.propertyKey v ++ ": this \x7d;") =
      .ok [.expression .detached (madeAssignment (instanceTree "o")
        (.object .detached [(lonelyMember v).tree]))] := by
  have place : Forms .operand [.word "this" false, .mark ".", .word "o" false] (instanceTree "o") :=
    .member .this "o"
  have object : Forms .sum (.mark "\x7b" :: ((lonelyMember v).all ++ [.mark "\x7d"]))
      (.object .detached [(lonelyMember v).tree]) := by
    have members := Forms.object [lonelyMember v]
      (List.forall_mem_singleton.mpr (keyForms v)) (List.forall_mem_singleton.mpr (.single .this))
    simpa [commaJoined] using members.single
  have value := ((spells_semicolon.mark (c := '\x7d') (m := "\x7d") (by decide)).space.word
    (n := "this") (by decide) endsWord_space).space.mark (c := ':') (m := ":") (by decide)
  have key := spells_propertyKey v (endsWord_cons (by decide) (by decide) _) value
  have assigned := (key.space.mark (c := '\x7b') (m := "\x7b") (by decide)).equals.space
  have spells := (assigned.dotWord (n := "o") (by decide) endsWord_space).word (n := "this")
    (by decide) (endsWord_cons (by decide) (by decide) _)
  have eq : ("this.o = \x7b " ++ Code.propertyKey v ++ ": this \x7d;").toList =
      "this".toList ++ '.' :: ("o".toList ++ ' ' :: '=' :: ' ' :: '\x7b' :: ' ' ::
        ((Code.propertyKey v).toList ++ ':' :: ' ' :: ("this".toList ++ [' ', '\x7d', ';']))) := by
    simp
  rw [← eq] at spells
  have long := spells.length_le
  refine @statements_of_this _ _ (.mark "." :: .word "o" false :: .mark "=" :: .mark "\x7b" ::
    ((lonelyMember v).all ++ [.mark "\x7d"])) ?_ ⟨_, eq⟩ (.keyword (by decide)) fun c ordinary => ?_
  · simpa [MadeMember.all, lonelyMember] using spells
  · refine takes_assignment (access_instance "o") place object ?_ ?_ ordinary
    · simp
    · simp only [MadeMember.all, lonelyMember, List.length_cons, List.length_append,
        List.length_nil] at long ⊢
      omega

/-- The text of a getter without statements. -/
def getterText (isStatic : Bool) (key : String) : String :=
  (if isStatic then "static " else "") ++ "get " ++ key ++ "() \x7b \x7d"

/-- The key that no getter may have: the one of the constructor, or that of the prototype. -/
def barredKey (isStatic : Bool) : String := if isStatic then "prototype" else "constructor"

theorem isNamed_getterKey {wanted : String} (other : v ≠ wanted) :
    (getterKey v).isNamed wanted = false := by
  unfold getterKey
  split
  · simpa [Key.isNamed] using other
  · rfl

/-- A getter, as a member of a class. -/
theorem classMembers_memberKey {isStatic : Bool} (allowed : v ≠ barredKey isStatic) :
    classMembers (getterText isStatic (Code.memberKey v)) =
      .ok [madeGetter isStatic (getterKey v) []] := by
  have allowed' : if isStatic then (getterKey v).isNamed "prototype" = false
      else (getterKey v).isConstructorName = false := by
    cases isStatic with
    | false => exact isNamed_getterKey allowed
    | true => exact isNamed_getterKey allowed
  have spells : SpellsHere (getterText isStatic (Code.memberKey v))
      (getterLexemes isStatic (keyLexemes v) []) := by
    intro rest more h
    have body := (h.mark (c := '\x7d') (m := "\x7d") (by decide)).space.mark (c := '\x7b')
      (m := "\x7b") (by decide)
    have params := (body.space.mark (c := ')') (m := ")") (by decide)).mark (c := '(') (m := "(")
      (by decide)
    have getter := (spells_key v _ _ (endsWord_cons (by decide) (by decide) _) params).space.word
      (n := "get") (by decide) endsWord_space
    cases isStatic with
    | false =>
        simpa [getterText, getterLexemes, functionLexemes, blockLexemes, commaJoined] using getter
    | true =>
        have static := getter.space.word (n := "static") (by decide) endsWord_space
        simpa [getterText, getterLexemes, functionLexemes, blockLexemes, commaJoined] using static
  exact @classMembers_eq _
    [(getterLexemes isStatic (keyLexemes v) [], madeGetter isStatic (getterKey v) [])]
    (by simpa using spells) (List.forall_mem_singleton.mpr (.getter (forms_key v) allowed' [] (by simp)))

/-! ### Names are read back -/

/-- What is made of a name and of a string in made-up code, and what it is read as. -/
structure IsReadBack (v : String) : Prop where
  /-- A string is one literal for itself. -/
  string : IsLiteralOf (quote v).toList v
  /-- A key of an object is read as the name, by whatever rules and in front of whatever text. -/
  propertyKey : ∀ r,
    IsReadBy (Parser.propertyKey r) (Code.propertyKey v) (writtenKey? · = some (.ofString v))
  /-- So is a key of a class, behind whatever modifiers. -/
  memberKey : ∀ depth words,
    IsReadBy (Parser.memberKey (rules (depth + 4)) words) (Code.memberKey v)
      (writtenKey? · = some (.ofString v))
  /-- An access is made to the member of this name, whatever the object is. -/
  memberAccess : ∀ object e, IsOperand object e → ∃ access, accessOf? access = some (e, .ofString v) ∧
    IsOperand (Code.memberAccess object v) access
  /-- An object with such a key has one member, and its key says the name. -/
  object : ∃ key, writtenKey? key = some (.ofString v) ∧
    statements ("this.o = \x7b " ++ Code.propertyKey v ++ ": this \x7d;") =
      .ok [.expression .detached (madeAssignment (instanceTree "o")
        (.object .detached [.property .detached key (.this .detached) false]))]
  /-- A class with a getter of such a key has one member, and its key says the name. -/
  getter : ∀ isStatic, v ≠ barredKey isStatic → ∃ key, writtenKey? key = some (.ofString v) ∧
    classMembers (getterText isStatic (Code.memberKey v)) = .ok [madeGetter isStatic key []]
  /-- The access to a member of the instance is all of the code that it is written in. -/
  access : ∃ access, accessOf? access = some (.this .detached, .ofString v) ∧
    statements (Code.memberAccess "this" v ++ ";") = .ok [.expression .detached access]
  /-- The name stands as it is exactly if it is an identifier of ASCII characters. -/
  plainProperty : Code.propertyKey v = v ↔ IsAsciiName v
  plainMember : Code.memberKey v = v ↔ IsAsciiName v
  plainAccess : ∀ object, Code.memberAccess object v = object ++ "." ++ v ↔ IsAsciiName v

theorem accessOf?_instanceTree (v : String) :
    accessOf? (instanceTree v) = some (.this .detached, .ofString v) := by
  unfold instanceTree
  split <;> rfl

/-- Every text is read back from wherever it is written as a name or as a string. -/
theorem names_readBack (v : String) : IsReadBack v where
  string := isLiteralOf_quote v
  propertyKey := fun r => propertyKey_isReadBy r v
  memberKey := fun depth words => memberKey_isReadBy depth words v
  memberAccess := fun _ _ operand => memberAccess_isOperand operand v
  object := ⟨keyTree v, writtenKey?_keyTree v, statements_propertyKey v⟩
  getter := fun _ allowed => ⟨getterKey v, writtenKey?_getterKey v, classMembers_memberKey allowed⟩
  access := ⟨instanceTree v, accessOf?_instanceTree v, statements_memberAccess v⟩
  plainProperty := propertyKey_eq_iff
  plainMember := memberKey_eq_iff
  plainAccess := fun _ => memberAccess_eq_iff

end ComponentLowering.Code
