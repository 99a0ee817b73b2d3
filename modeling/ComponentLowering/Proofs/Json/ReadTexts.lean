/-
# Reading JSON texts

A reader that is given a JSON text in front of others moves behind it.  Values that nobody asks for are passed
over whatever they hold; a string that is asked for is read as the text that it spells.
-/
import ComponentLowering.Json.Reader
import ComponentLowering.Proofs.Json.Grammar

namespace ComponentLowering.Json

open ComponentLowering.Text Reader

variable {α β : Type} {r : Reader α} {f : α → Reader β} {a : α} {b : β} {text before mid rest : List Char}
  {c e : Char} {offset n : Nat} {strict : Bool} {lead : Option Nat} {digits body : List Char}

/-! ### Moving through a text -/

/-- Whether a reader takes a text up to some rest and comes to a value, at whatever place the text stands. -/
def Reads (r : Reader α) (text : List Char) (a : α) (rest : List Char) : Prop :=
  ∀ offset, ∃ stop, r.run ⟨text, offset⟩ = .ok (a, ⟨rest, stop⟩)

theorem reads_pure (a : α) (text : List Char) : Reads (pure a) text a text := fun offset => ⟨offset, rfl⟩

theorem Reads.bind (h : Reads r text a mid) (h' : Reads (f a) mid b rest) : Reads (r >>= f) text b rest := by
  intro offset
  obtain ⟨stop, run⟩ := h offset
  obtain ⟨stop', run'⟩ := h' stop
  refine ⟨stop', ?_⟩
  rw [StateT.run_bind, run]
  exact run'

/-- A reader that looks where it is. -/
theorem reads_get {f : Cursor → Reader β} (h : ∀ offset, Reads (f ⟨text, offset⟩) text b rest) :
    Reads (get >>= f) text b rest := by
  intro offset
  exact h offset offset

theorem reads_set (text : List Char) (cursor : Cursor) : Reads (set cursor) text ⟨⟩ cursor.rest :=
  fun _ => ⟨cursor.offset, rfl⟩

theorem rest_skip (n : Nat) (cursor : Cursor) : (cursor.skip n).rest = cursor.rest.drop n := by
  induction n generalizing cursor with
  | zero => rfl
  | succ n ih =>
      obtain ⟨text, offset⟩ := cursor
      cases text with
      | nil => rfl
      | cons c rest => exact ih _

theorem reads_advance : Reads advance (c :: rest) ⟨⟩ rest := fun offset => ⟨offset + byteWidth c, rfl⟩

theorem isBlank_iff : Reader.isBlank c = true ↔ IsSpace c := by
  simp [Reader.isBlank, IsSpace, or_assoc]

theorem takeWhile_append {p : Char → Bool} (all : ∀ c ∈ before, p c = true)
    (other : ∀ c ∈ rest.head?, p c = false) : (before ++ rest).takeWhile p = before := by
  rw [List.takeWhile_append_of_pos all]
  cases rest with
  | nil => simp
  | cons c more => rw [List.takeWhile_cons_of_neg (by simp [other c rfl]), List.append_nil]

theorem takeWhile_blank (blank : IsBlank before) (other : ∀ c ∈ rest.head?, ¬IsSpace c) :
    (before ++ rest).takeWhile Reader.isBlank = before := by
  refine takeWhile_append (fun c mem => isBlank_iff.mpr (blank c mem)) fun c mem => ?_
  rw [Bool.eq_false_iff, ne_eq, isBlank_iff]
  exact other c mem

/-- Characters can be passed over all at once. -/
theorem reads_skip (before rest : List Char) (offset : Nat) :
    Reads (set ((⟨before ++ rest, offset⟩ : Cursor).skip before.length)) (before ++ rest) ⟨⟩ rest := by
  have moved := reads_set (before ++ rest) ((⟨before ++ rest, offset⟩ : Cursor).skip before.length)
  rwa [rest_skip, List.drop_left] at moved

/-- White space is passed over. -/
theorem reads_next? (blank : IsBlank before) (other : ∀ c ∈ rest.head?, ¬IsSpace c) :
    Reads next? (before ++ rest) rest.head? rest := by
  refine reads_get fun offset => ?_
  dsimp only
  rw [takeWhile_blank blank other]
  refine (reads_skip _ _ _).bind ?_
  rw [rest_skip, List.drop_left]
  exact reads_pure _ _

/-- White space in front of a character that is none. -/
theorem reads_next?_cons (blank : IsBlank before) (other : ¬IsSpace c) :
    Reads next? (before ++ c :: rest) (some c) (c :: rest) :=
  reads_next? blank fun _ mem => Option.some.inj mem ▸ other

theorem reads_wordRest (word rest : List Char) : Reads (wordRest word) (word ++ rest) ⟨⟩ rest := by
  induction word with
  | nil => exact reads_pure _ _
  | cons c word ih =>
      unfold wordRest
      refine reads_get fun offset => ?_
      dsimp only [List.cons_append]
      rw [if_pos rfl]
      exact reads_advance.bind ih

/-! ### Strings -/

theorem hexValue?_of_isHexDigit (digit : IsHexDigit c n) : hexValue? c = some n := by
  have table : ∀ n < 16, hexValue? (Nat.digitChar n) = some n ∧ hexValue? (Nat.digitChar n).toUpper = some n := by
    decide
  obtain ⟨small, rfl | rfl⟩ := digit
  · exact (table n small).1
  · exact (table n small).2

theorem fourHexValue?_of_isFourHex (hex : IsFourHex digits n) : fourHexValue? digits = some (n, []) := by
  cases hex with
  | digits a b c d =>
      unfold fourHexValue?
      dsimp only
      rw [hexValue?_of_isHexDigit a, hexValue?_of_isHexDigit b, hexValue?_of_isHexDigit c,
        hexValue?_of_isHexDigit d]
      rfl

theorem stringFrom_plain (visible : 0x20 ≤ c.toNat) (quote : c ≠ '"') (slash : c ≠ '\\') :
    stringFrom strict none offset (c :: rest) =
      stringFrom strict none (offset + byteWidth c) rest >>= fun (cs, stop) => pure (c :: cs, stop) := by
  rw [stringFrom]
  · rw [if_neg (by decide), if_neg quote, if_neg (by omega)]
  · rintro a b c d more eq
    exact absurd eq slash
  · exact slash

theorem stringFrom_simple (known : (e, c) ∈ simpleEscapes) :
    stringFrom strict none offset ('\\' :: e :: rest) =
      stringFrom strict none (offset + 2) rest >>= fun (cs, stop) => pure (c :: cs, stop) := by
  simp only [simpleEscapes, List.mem_cons, Prod.mk.injEq, List.not_mem_nil, or_false] at known
  rcases known with ⟨rfl, rfl⟩ | ⟨rfl, rfl⟩ | ⟨rfl, rfl⟩ | ⟨rfl, rfl⟩ | ⟨rfl, rfl⟩ | ⟨rfl, rfl⟩ | ⟨rfl, rfl⟩ |
    ⟨rfl, rfl⟩ <;> rfl

/-- Four digits where surrogates need no partner. -/
theorem stringFrom_loose (hex : IsFourHex digits n) :
    stringFrom false lead offset ('\\' :: 'u' :: (digits ++ rest)) =
      stringFrom false none (offset + 6) rest >>= fun (cs, stop) => pure (replacement :: cs, stop) := by
  have value := fourHexValue?_of_isFourHex hex
  cases hex with
  | digits =>
      dsimp only [List.cons_append, List.nil_append]
      rw [stringFrom, value]
      rfl

/-- Four digits where surrogates stand in pairs. -/
theorem stringFrom_strict (hex : IsFourHex digits n) :
    stringFrom true lead offset ('\\' :: 'u' :: (digits ++ rest)) =
      match lead with
      | some first =>
        if isTrailSurrogate n then
          stringFrom true none (offset + 6) rest >>= fun (cs, stop) => pure (joinSurrogates first n :: cs, stop)
        else .error ⟨.malformed "lone leading surrogate in hex escape", offset + 6⟩
      | none =>
        if isTrailSurrogate n then .error ⟨.malformed "lone leading surrogate in hex escape", offset + 6⟩
        else if isLeadSurrogate n then stringFrom true (some n) (offset + 6) rest
        else stringFrom true none (offset + 6) rest >>= fun (cs, stop) => pure (Char.ofNat n :: cs, stop) := by
  have value := fourHexValue?_of_isFourHex hex
  cases hex with
  | digits =>
      dsimp only [List.cons_append, List.nil_append]
      rw [stringFrom, value]
      rfl

theorem not_surrogate (c : Char) : isTrailSurrogate c.toNat = false ∧ isLeadSurrogate c.toNat = false := by
  unfold isTrailSurrogate isLeadSurrogate
  have valid : c.toNat < 0xD800 ∨ 0xDFFF < c.toNat ∧ c.toNat < 0x110000 := c.valid
  constructor <;> simp <;> omega

/-- The two halves of a character beyond the first plane make that character again. -/
theorem joinSurrogates_halves (beyond : 0x10000 ≤ c.toNat) :
    isLeadSurrogate (0xD800 + (c.toNat - 0x10000) / 0x400) = true ∧
      isTrailSurrogate (0xD800 + (c.toNat - 0x10000) / 0x400) = false ∧
      isTrailSurrogate (0xDC00 + (c.toNat - 0x10000) % 0x400) = true ∧
      joinSurrogates (0xD800 + (c.toNat - 0x10000) / 0x400) (0xDC00 + (c.toNat - 0x10000) % 0x400) = c := by
  have valid : c.toNat < 0xD800 ∨ 0xDFFF < c.toNat ∧ c.toNat < 0x110000 := c.valid
  unfold isLeadSurrogate isTrailSurrogate joinSurrogates
  refine ⟨?_, ?_, ?_, ?_⟩
  · simp
    omega
  · simp
    omega
  · simp
    omega
  · have whole : 0x10000 + (0xD800 + (c.toNat - 0x10000) / 0x400 - 0xD800) * 0x400 +
        (0xDC00 + (c.toNat - 0x10000) % 0x400 - 0xDC00) = c.toNat := by omega
    rw [whole, Char.ofNat_toNat]

/-- A string is read as the text that it spells. -/
theorem stringFrom_spells (spells : Spells text body) (rest : List Char) (offset : Nat) :
    ∃ stop, stringFrom true none offset (body ++ '"' :: rest) = .ok (text, ⟨rest, stop⟩) := by
  induction spells generalizing offset with
  | nil => exact ⟨offset + 1, rfl⟩
  | @cons c text one body first _ ih =>
      cases first with
      | plain visible quote slash =>
          obtain ⟨stop, run⟩ := ih (offset + byteWidth c)
          refine ⟨stop, ?_⟩
          rw [List.singleton_append, List.cons_append, stringFrom_plain visible quote slash, run]
          rfl
      | simple known =>
          obtain ⟨stop, run⟩ := ih (offset + 2)
          refine ⟨stop, ?_⟩
          rw [List.cons_append, List.singleton_append, List.cons_append, List.cons_append,
            stringFrom_simple known, run]
          rfl
      | hex digits =>
          obtain ⟨stop, run⟩ := ih (offset + 6)
          refine ⟨stop, ?_⟩
          obtain ⟨noTrail, noLead⟩ := not_surrogate c
          simp only [List.cons_append, List.append_assoc]
          rw [stringFrom_strict digits, noTrail, noLead, run]
          simp only [Bool.false_eq_true, if_false]
          rw [Char.ofNat_toNat]
          rfl
      | pair beyond lead trail =>
          obtain ⟨stop, run⟩ := ih (offset + 6 + 6)
          refine ⟨stop, ?_⟩
          obtain ⟨isLead, noTrail, isTrail, joined⟩ := joinSurrogates_halves beyond
          simp only [List.cons_append, List.append_assoc]
          rw [stringFrom_strict lead, noTrail, isLead]
          simp only [Bool.false_eq_true, if_false, if_true]
          rw [stringFrom_strict trail]
          simp only [isTrail, if_true, joined]
          rw [run]
          rfl

/-- A string that nobody asks for is read up to its end. -/
theorem stringFrom_body (isBody : IsBody body) (rest : List Char) (offset : Nat) :
    ∃ text stop, stringFrom false none offset (body ++ '"' :: rest) = .ok (text, ⟨rest, stop⟩) := by
  induction isBody generalizing offset with
  | nil => exact ⟨[], offset + 1, rfl⟩
  | @cons one body first _ ih =>
      cases first with
      | @plain c visible quote slash =>
          obtain ⟨text, stop, run⟩ := ih (offset + byteWidth c)
          refine ⟨c :: text, stop, ?_⟩
          rw [List.singleton_append, List.cons_append, stringFrom_plain visible quote slash, run]
          rfl
      | @simple e c known =>
          obtain ⟨text, stop, run⟩ := ih (offset + 2)
          refine ⟨c :: text, stop, ?_⟩
          rw [List.cons_append, List.singleton_append, List.cons_append, List.cons_append,
            stringFrom_simple known, run]
          rfl
      | hex digits =>
          obtain ⟨text, stop, run⟩ := ih (offset + 6)
          refine ⟨replacement :: text, stop, ?_⟩
          simp only [List.cons_append, List.append_assoc]
          rw [stringFrom_loose digits, run]
          rfl

/-- Whether a reader takes a text up to some rest, to whatever value it comes. -/
def Passes (r : Reader α) (text rest : List Char) : Prop :=
  ∀ offset, ∃ a stop, r.run ⟨text, offset⟩ = .ok (a, ⟨rest, stop⟩)

theorem Reads.passes (h : Reads r text a rest) : Passes r text rest := fun offset => ⟨a, h offset⟩

theorem passes_get {f : Cursor → Reader β} (h : ∀ offset, Passes (f ⟨text, offset⟩) text rest) :
    Passes (get >>= f) text rest := fun offset => h offset offset

theorem Passes.bind (h : Passes r text mid) (h' : ∀ a, Reads (f a) mid b rest) : Reads (r >>= f) text b rest := by
  intro offset
  obtain ⟨a, stop, run⟩ := h offset
  obtain ⟨stop', run'⟩ := h' a stop
  refine ⟨stop', ?_⟩
  rw [StateT.run_bind, run]
  exact run'

theorem reads_stringRest (spells : Spells text body) :
    Reads (stringRest true) (body ++ '"' :: rest) (String.ofList text) rest := by
  unfold stringRest
  refine reads_get fun offset => ?_
  obtain ⟨stop, run⟩ := stringFrom_spells spells rest offset
  dsimp only
  rw [run]
  exact (reads_set _ ⟨rest, stop⟩).bind (reads_pure _ _)

theorem passes_stringRest (isBody : IsBody body) : Passes (stringRest false) (body ++ '"' :: rest) rest := by
  unfold stringRest
  refine passes_get fun offset => ?_
  obtain ⟨text, stop, run⟩ := stringFrom_body isBody rest offset
  dsimp only
  rw [run]
  exact ((reads_set _ ⟨rest, stop⟩).bind (reads_pure (String.ofList text) rest)).passes

/-! ### Numbers -/

theorem isDigit_iff : isDigit c = true ↔ '0' ≤ c ∧ c ≤ '9' := by
  unfold isDigit
  rw [Bool.and_eq_true, decide_eq_true_iff, decide_eq_true_iff]

/-- What may follow a value: white space, and what comes next in a list or an object. -/
def EndsValue (rest : List Char) : Prop :=
  ∀ c ∈ rest.head?, IsSpace c ∨ c = ',' ∨ c = ']' ∨ c = '\x7d'

theorem EndsValue.other (ends : EndsValue rest) (mem : c ∈ rest.head?) :
    isDigit c = false ∧ c ≠ '.' ∧ c ≠ 'e' ∧ c ≠ 'E' := by
  rcases ends c mem with (rfl | rfl | rfl | rfl) | rfl | rfl | rfl <;> decide

theorem takeWhile_digits (isDigits : IsDigits digits) (other : ∀ c ∈ rest.head?, isDigit c = false) :
    (digits ++ rest).takeWhile isDigit = digits :=
  takeWhile_append (fun c mem => isDigit_iff.mpr (isDigits.digits c mem)) other

theorem exists_digit (isDigits : IsDigits digits) : ∃ d more, digits = d :: more ∧ isDigit d = true := by
  obtain ⟨d, more, rfl⟩ := List.exists_cons_of_ne_nil isDigits.nonempty
  exact ⟨d, more, rfl, isDigit_iff.mpr (isDigits.digits d (List.mem_cons_self ..))⟩

/-- A number without a sign begins with a digit. -/
theorem IsMagnitude.exists_digit (isMagnitude : IsMagnitude text) :
    ∃ d more, text = d :: more ∧ isDigit d = true := by
  obtain ⟨isInteger, -, -⟩ := isMagnitude
  obtain ⟨d, more, rfl, isDigit⟩ := Json.exists_digit isInteger.toIsDigits
  exact ⟨d, _, rfl, isDigit⟩

theorem not_isSpace_of_isDigit (isDigit : Json.isDigit c = true) : ¬IsSpace c := by
  rintro (rfl | rfl | rfl | rfl) <;> cases isDigit

theorem startsWithDigit (isDigits : IsDigits digits) (rest : List Char) :
    ((digits ++ rest).head?.map isDigit).getD false = true := by
  obtain ⟨d, more, rfl, isDigit⟩ := exists_digit isDigits
  exact isDigit

theorem sign_of_isDigit (isDigit : Json.isDigit c = true) : c ≠ '+' ∧ c ≠ '-' := by
  constructor <;> rintro rfl <;> cases isDigit

theorem reads_skipExponent {sign : List Char} (isSign : sign = [] ∨ sign = ['+'] ∨ sign = ['-'])
    (isDigits : IsDigits digits) (ends : EndsValue rest) :
    Reads skipExponent (sign ++ digits ++ rest) ⟨⟩ rest := by
  have power : Reads (do
      let c ← get
      if (c.rest.head?.map isDigit).getD false = true then set (c.skip (c.rest.takeWhile isDigit).length)
      else failNext (.malformed "invalid number")) (digits ++ rest) ⟨⟩ rest := by
    refine reads_get fun offset => ?_
    dsimp only
    rw [if_pos (startsWithDigit isDigits rest), takeWhile_digits isDigits fun c mem => (ends.other mem).1]
    exact reads_skip _ _ _
  unfold skipExponent
  refine reads_get fun offset => ?_
  rcases isSign with rfl | rfl | rfl
  · obtain ⟨d, more, rfl, isDigit⟩ := exists_digit isDigits
    obtain ⟨plus, minus⟩ := sign_of_isDigit isDigit
    dsimp only [List.nil_append, List.cons_append]
    split
    · rename_i eq
      exact absurd (List.cons.inj eq).1 plus
    · rename_i eq
      exact absurd (List.cons.inj eq).1 minus
    · exact power
  · exact reads_advance.bind power
  · exact reads_advance.bind power

theorem reads_skipExponent? {exponent : List Char} (isExponent : IsExponent exponent) (ends : EndsValue rest) :
    Reads skipExponent? (exponent ++ rest) ⟨⟩ rest := by
  unfold skipExponent?
  refine reads_get fun offset => ?_
  cases isExponent with
  | none =>
      dsimp only [List.nil_append]
      split
      · exact absurd rfl (ends.other rfl).2.2.1
      · exact absurd rfl (ends.other rfl).2.2.2
      · exact reads_pure _ _
  | @power letter sign digits isLetter isSign isDigits =>
      rcases isLetter with rfl | rfl
      · exact reads_advance.bind (reads_skipExponent isSign isDigits ends)
      · exact reads_advance.bind (reads_skipExponent isSign isDigits ends)

/-- What is left of a number behind its first digits does not begin with a digit. -/
theorem not_isDigit_tail {fraction exponent : List Char} (isFraction : IsFraction fraction)
    (isExponent : IsExponent exponent) (ends : EndsValue rest) :
    ∀ c ∈ (fraction ++ (exponent ++ rest)).head?, isDigit c = false := by
  intro c mem
  cases isFraction with
  | point isDigits =>
      cases mem
      rfl
  | none =>
      cases isExponent with
      | none => exact (ends.other mem).1
      | power isLetter _ _ =>
          cases mem
          rcases isLetter with rfl | rfl <;> rfl

theorem reads_skipNumber (isMagnitude : IsMagnitude text) (ends : EndsValue rest) :
    Reads skipNumber (text ++ rest) ⟨⟩ rest := by
  obtain ⟨isInteger, isFraction, isExponent⟩ := isMagnitude
  rename_i integer fraction exponent
  have tail := not_isDigit_tail isFraction isExponent ends
  rw [List.append_assoc, List.append_assoc]
  -- What follows the first digits is the same whether they are a zero or not.
  unfold skipNumber
  refine reads_get fun offset => ?_
  extract_lets onward
  have behind : Reads (onward ⟨⟩) (fraction ++ (exponent ++ rest)) ⟨⟩ rest := by
    refine reads_get fun offset => ?_
    cases isFraction with
    | none =>
        dsimp only [List.nil_append]
        split
        · rename_i eq
          cases isExponent with
          | none =>
              rw [List.nil_append] at eq
              exact absurd rfl (ends.other (c := '.') (by rw [eq]; rfl)).2.1
          | power isLetter _ _ =>
              have point := (List.cons.inj eq).1
              rcases isLetter with rfl | rfl <;> cases point
        · exact reads_skipExponent? isExponent ends
    | point isDigits =>
        refine reads_advance.bind (reads_get fun offset => ?_)
        dsimp only [List.append_eq]
        have later : ∀ c ∈ (exponent ++ rest).head?, isDigit c = false :=
          not_isDigit_tail .none isExponent ends
        rw [if_pos (startsWithDigit isDigits _), takeWhile_digits isDigits later]
        exact (reads_skip _ _ _).bind (reads_skipExponent? isExponent ends)
  dsimp only
  obtain ⟨d, more, eq, isDigit⟩ := exists_digit isInteger.toIsDigits
  split
  · rename_i rest' eq'
    have zero : integer = ['0'] := by
      refine isInteger.short ?_
      rw [eq] at eq' ⊢
      rw [(List.cons.inj eq').1]
      rfl
    subst zero
    obtain rfl := (List.cons.inj eq').2
    refine reads_advance.bind ?_
    have stays : ¬((fraction ++ (exponent ++ rest)).head?.map Json.isDigit).getD false = true := by
      cases head : (fraction ++ (exponent ++ rest)).head? with
      | none => simp
      | some c => simp [tail c head]
    dsimp only [List.append_eq, List.nil_append]
    rw [if_neg stays]
    exact behind
  · rename_i d' tail' _ eq'
    rw [eq] at eq'
    rw [← (List.cons.inj eq').1, if_pos isDigit, takeWhile_digits isInteger.toIsDigits tail]
    exact (reads_skip _ _ _).bind behind
  · rename_i eq'
    rw [eq] at eq'
    cases eq'

/-! ### Lists and objects -/

theorem reads_colon (blank : IsBlank before) : Reads colon (before ++ ':' :: rest) ⟨⟩ rest := by
  unfold colon
  exact (reads_next?_cons blank (by decide)).bind reads_advance

/-- What stands behind the first of some texts with commas between them, up to the closing bracket. -/
def behind (closing : Char) (rest : List Char) : List (List Char) → List Char
  | [] => closing :: rest
  | text :: more => ',' :: (text ++ behind closing rest more)

theorem separated_cons (closing : Char) (first : List Char) (more : List (List Char)) (rest : List Char) :
    separated (first :: more) ++ closing :: rest = first ++ behind closing rest more := by
  induction more generalizing first with
  | nil => simp [separated, behind]
  | cons second more ih =>
      rw [behind, ← ih second]
      simp [separated, List.intercalate]

theorem length_behind (closing : Char) (rest : List Char) (more : List (List Char)) :
    rest.length < (behind closing rest more).length := by
  induction more with
  | nil => simp [behind]
  | cons text more ih =>
      simp only [behind, List.length_cons, List.length_append]
      omega

/-- What follows a value in a list or an object. -/
theorem endsValue_behind {closing : Char} (brackets : closing = ']' ∨ closing = '\x7d') (blank : IsBlank before)
    (more : List (List Char)) : EndsValue (before ++ behind closing rest more) := by
  intro c mem
  cases before with
  | nil =>
      cases more with
      | nil =>
          cases mem
          exact .inr (.inr brackets)
      | cons text more =>
          cases mem
          exact .inr (.inl rfl)
  | cons d before =>
      cases mem
      exact .inl (blank c (List.mem_cons_self ..))

/-- The first character of a value belongs to the value. -/
theorem IsValue.exists_cons (isValue : IsValue text) :
    ∃ c more, text = c :: more ∧ ¬IsSpace c ∧ c ≠ ']' ∧ c ≠ '\x7d' := by
  cases isValue with
  | word known =>
      simp only [List.mem_cons, List.not_mem_nil, or_false] at known
      rcases known with rfl | rfl | rfl <;> exact ⟨_, _, rfl, by decide, by decide, by decide⟩
  | negative _ | string _ | list _ _ _ | object _ _ _ _ => exact ⟨_, _, rfl, by decide, by decide, by decide⟩
  | number isMagnitude =>
      obtain ⟨c, more, rfl, isDigit⟩ := isMagnitude.exists_digit
      refine ⟨c, more, rfl, not_isSpace_of_isDigit isDigit, ?_, ?_⟩
      · rintro rfl
        cases isDigit
      · rintro rfl
        cases isDigit

/-- Whether values of a form are passed over, with enough fuel for their length. -/
def IsSkipped (value : List Char) : Prop :=
  ∀ fuel before rest, value.length ≤ fuel → IsBlank before → EndsValue rest →
    Reads (skipValue fuel) (before ++ (value ++ rest)) ⟨⟩ rest

/-- The items of a list are passed over if each of them is. -/
theorem reads_skipItems {item : Item} (more : List Item) {before rest : List Char}
    (spaced : ∀ i ∈ item :: more, i.IsSpaced) (skipped : ∀ i ∈ item :: more, IsSkipped i.value) {fuel : Nat}
    (enough : (item.value ++ (item.after ++ behind ']' rest (more.map Item.text))).length ≤ fuel + rest.length)
    (blank : IsBlank before) :
    Reads (skipItems fuel) (before ++ (item.value ++ (item.after ++ behind ']' rest (more.map Item.text)))) ⟨⟩
      rest := by
  obtain ⟨here, spaced⟩ := List.forall_mem_cons.mp spaced
  obtain ⟨first, skipped⟩ := List.forall_mem_cons.mp skipped
  have closed := length_behind ']' rest (more.map Item.text)
  simp only [List.length_append] at enough
  obtain ⟨fuel, rfl⟩ := Nat.exists_eq_add_one.mpr (show 0 < fuel by omega)
  unfold skipItems
  refine (first fuel _ _ (by omega) blank (endsValue_behind (.inl rfl) here.after _)).bind ?_
  cases more with
  | nil => exact (reads_next?_cons here.after (by decide)).bind reads_advance
  | cons next more =>
      refine (reads_next?_cons here.after (by decide)).bind (reads_advance.bind ?_)
      have there := (spaced next (List.mem_cons_self ..)).before
      simp only [List.map_cons, behind, List.length_cons, List.length_append, Item.text] at enough
      simp only [Item.text, List.append_assoc]
      exact reads_skipItems more spaced skipped (by simp only [List.length_append]; omega) there
termination_by more.length

/-- The members of an object are passed over if their values are. -/
theorem reads_skipMembers {m : Member} (more : List Member) {before rest : List Char}
    (spaced : ∀ i ∈ m :: more, i.IsSpaced) (keys : ∀ i ∈ m :: more, IsBody i.key)
    (skipped : ∀ i ∈ m :: more, IsSkipped i.value) {fuel : Nat}
    (enough : (m.tail ++ behind '\x7d' rest (more.map Member.text)).length ≤ fuel + rest.length)
    (blank : IsBlank before) :
    Reads (skipMembers fuel) (before ++ (m.tail ++ behind '\x7d' rest (more.map Member.text))) ⟨⟩ rest := by
  obtain ⟨here, spaced⟩ := List.forall_mem_cons.mp spaced
  obtain ⟨key, keys⟩ := List.forall_mem_cons.mp keys
  obtain ⟨first, skipped⟩ := List.forall_mem_cons.mp skipped
  have closed := length_behind '\x7d' rest (more.map Member.text)
  simp only [Member.tail, quoted, List.length_append, List.length_cons] at enough
  obtain ⟨fuel, rfl⟩ := Nat.exists_eq_add_one.mpr (show 0 < fuel by omega)
  unfold skipMembers
  simp only [Member.tail, quoted, List.cons_append, List.append_assoc]
  refine (reads_next?_cons blank (by decide)).bind (reads_advance.bind ?_)
  refine (passes_stringRest key).bind fun _ => ?_
  refine (reads_colon here.behindKey).bind ?_
  refine (first fuel _ _ (by omega) here.beforeValue (endsValue_behind (.inr rfl) here.after _)).bind ?_
  cases more with
  | nil => exact (reads_next?_cons here.after (by decide)).bind reads_advance
  | cons next more =>
      refine (reads_next?_cons here.after (by decide)).bind (reads_advance.bind ?_)
      have there := (spaced next (List.mem_cons_self ..)).before
      simp only [List.map_cons, behind, List.length_cons, List.length_append, Member.text] at enough
      simp only [Member.text, List.append_assoc]
      exact reads_skipMembers more spaced keys skipped (by simp only [List.length_append]; omega) there
termination_by more.length

theorem isSkipped_number (isMagnitude : IsMagnitude text) : IsSkipped text := by
  intro fuel before rest enough blank ends
  have number := reads_skipNumber isMagnitude ends
  obtain ⟨d, more, rfl, isDigit⟩ := isMagnitude.exists_digit
  obtain ⟨fuel, rfl⟩ := Nat.exists_eq_add_one.mpr (Nat.zero_lt_of_lt enough)
  unfold skipValue
  simp only [List.cons_append] at number ⊢
  refine (reads_next?_cons blank (not_isSpace_of_isDigit isDigit)).bind ?_
  split
  case h_9 _ found =>
    rw [← Option.some.inj found, if_pos isDigit]
    exact number
  case h_1 _ found => cases found
  all_goals
    rename_i found
    rw [Option.some.inj found] at isDigit
    cases isDigit

theorem listText_cons (blank : List Char) (item : Item) (more : List Item) (rest : List Char) :
    listText blank (item :: more) ++ rest =
      '[' :: ((blank ++ item.before) ++ (item.value ++ (item.after ++ behind ']' rest (more.map Item.text)))) := by
  have inside := separated_cons ']' item.text (more.map Item.text) rest
  unfold listText
  rw [List.append_assoc, List.singleton_append, List.map_cons, List.cons_append, List.cons_append,
    List.append_assoc, inside, Item.text]
  simp only [List.append_assoc]

theorem objectText_cons (blank : List Char) (m : Member) (more : List Member) (rest : List Char) :
    objectText blank (m :: more) ++ rest =
      '\x7b' :: ((blank ++ m.before) ++ (m.tail ++ behind '\x7d' rest (more.map Member.text))) := by
  have inside := separated_cons '\x7d' m.text (more.map Member.text) rest
  unfold objectText
  rw [List.append_assoc, List.singleton_append, List.map_cons, List.cons_append, List.cons_append,
    List.append_assoc, inside, Member.text]
  simp only [List.append_assoc]

theorem IsBlank.append {before after : List Char} (blank : IsBlank before) (blank' : IsBlank after) :
    IsBlank (before ++ after) :=
  List.forall_mem_append.mpr ⟨blank, blank'⟩

theorem isBlank_nil : IsBlank [] := List.forall_mem_nil _

theorem isSkipped_list {inner : List Char} {items : List Item} (isBlank : IsBlank inner)
    (spaced : ∀ i ∈ items, i.IsSpaced) (values : ∀ i ∈ items, IsValue i.value)
    (skipped : ∀ i ∈ items, IsSkipped i.value) : IsSkipped (listText inner items) := by
  intro fuel before rest enough blank ends
  obtain ⟨fuel, rfl⟩ := Nat.exists_eq_add_one.mpr (Nat.zero_lt_of_lt enough)
  unfold skipValue
  cases items with
  | nil =>
      simp only [listText, List.cons_append, List.append_assoc]
      refine (reads_next?_cons blank (by decide)).bind (reads_advance.bind ?_)
      exact (reads_next?_cons isBlank (by decide)).bind reads_advance
  | cons item more =>
      have first := (spaced item (List.mem_cons_self ..)).before
      have shorter : (item.value ++ (item.after ++ behind ']' rest (more.map Item.text))).length ≤
          fuel + rest.length := by
        have whole := congrArg List.length (listText_cons inner item more rest)
        simp only [List.length_cons, List.length_append] at whole ⊢
        omega
      have inside := reads_skipItems more spaced skipped shorter isBlank_nil
      rw [listText_cons]
      refine (reads_next?_cons blank (by decide)).bind (reads_advance.bind ?_)
      obtain ⟨c, value, eq, visible, open', -⟩ := (values item (List.mem_cons_self ..)).exists_cons
      rw [eq] at inside ⊢
      refine (reads_next?_cons (isBlank.append first) visible).bind ?_
      split
      · rename_i found
        exact absurd (Option.some.inj found) open'
      · rename_i found
        cases found
      · exact inside

theorem isSkipped_object {inner : List Char} {members : List Member} (isBlank : IsBlank inner)
    (spaced : ∀ i ∈ members, i.IsSpaced) (keys : ∀ i ∈ members, IsBody i.key)
    (skipped : ∀ i ∈ members, IsSkipped i.value) : IsSkipped (objectText inner members) := by
  intro fuel before rest enough blank ends
  obtain ⟨fuel, rfl⟩ := Nat.exists_eq_add_one.mpr (Nat.zero_lt_of_lt enough)
  unfold skipValue
  cases members with
  | nil =>
      simp only [objectText, List.cons_append, List.append_assoc]
      refine (reads_next?_cons blank (by decide)).bind (reads_advance.bind ?_)
      exact (reads_next?_cons isBlank (by decide)).bind reads_advance
  | cons m more =>
      have first := (spaced m (List.mem_cons_self ..)).before
      have shorter : (m.tail ++ behind '\x7d' rest (more.map Member.text)).length ≤ fuel + rest.length := by
        have whole := congrArg List.length (objectText_cons inner m more rest)
        simp only [List.length_cons, List.length_append] at whole ⊢
        omega
      have inside := reads_skipMembers more spaced keys skipped shorter isBlank_nil
      rw [objectText_cons]
      refine (reads_next?_cons blank (by decide)).bind (reads_advance.bind ?_)
      exact (reads_next?_cons (isBlank.append first) (by decide)).bind inside

/-- A value that nobody asks for is passed over. -/
theorem IsValue.isSkipped (isValue : IsValue text) : IsSkipped text := by
  induction isValue with
  | word known =>
      intro fuel before rest enough blank ends
      simp only [List.mem_cons, List.not_mem_nil, or_false] at known
      rcases known with rfl | rfl | rfl
      all_goals
        obtain ⟨fuel, rfl⟩ := Nat.exists_eq_add_one.mpr (Nat.lt_of_lt_of_le (by decide) enough)
        unfold skipValue
        exact (reads_next?_cons blank (by decide)).bind (reads_advance.bind (reads_wordRest _ _))
  | number isMagnitude => exact isSkipped_number isMagnitude
  | negative isMagnitude =>
      intro fuel before rest enough blank ends
      obtain ⟨fuel, rfl⟩ := Nat.exists_eq_add_one.mpr (Nat.zero_lt_of_lt enough)
      unfold skipValue
      exact (reads_next?_cons blank (by decide)).bind (reads_advance.bind (reads_skipNumber isMagnitude ends))
  | string isBody =>
      intro fuel before rest enough blank ends
      obtain ⟨fuel, rfl⟩ := Nat.exists_eq_add_one.mpr (Nat.zero_lt_of_lt enough)
      unfold skipValue
      simp only [quoted, List.cons_append, List.append_assoc]
      refine (reads_next?_cons blank (by decide)).bind (reads_advance.bind ?_)
      exact (passes_stringRest isBody).bind fun _ => reads_pure _ _
  | list isBlank spaced values ih => exact isSkipped_list isBlank spaced values ih
  | object isBlank spaced keys _ ih => exact isSkipped_object isBlank spaced keys ih

/-- Whatever value stands there, it is passed over. -/
theorem reads_ignored (isValue : IsValue text) (blank : IsBlank before) (ends : EndsValue rest) :
    Reads ignored (before ++ (text ++ rest)) ⟨⟩ rest := by
  unfold ignored
  refine reads_get fun offset => isValue.isSkipped _ _ _ ?_ blank ends
  simp only [List.length_append]
  omega

end ComponentLowering.Json
