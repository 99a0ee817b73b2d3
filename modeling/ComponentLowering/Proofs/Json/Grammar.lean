/-
# JSON texts

The texts that are JSON, with any white space between their tokens, and the spellings of a text as a string.  A
string of a JSON text may hold an escape for half of a surrogate pair alone; such a string spells no text, but a
value that nobody asks for may hold it all the same.
-/
import Mathlib.Data.List.Basic

namespace ComponentLowering.Json

/-! ### Characters -/

/-- White space between tokens. -/
def IsSpace (c : Char) : Prop := c = ' ' ∨ c = '\n' ∨ c = '\t' ∨ c = '\r'

instance (c : Char) : Decidable (IsSpace c) := inferInstanceAs (Decidable (_ ∨ _))

/-- Whether a text is white space only. -/
def IsBlank (text : List Char) : Prop := ∀ c ∈ text, IsSpace c

instance (text : List Char) : Decidable (IsBlank text) := List.decidableBAll IsSpace text

/-- Whether a character is the hexadecimal digit of a number, in either case. -/
def IsHexDigit (c : Char) (n : Nat) : Prop :=
  n < 16 ∧ (c = Nat.digitChar n ∨ c = (Nat.digitChar n).toUpper)

instance (c : Char) (n : Nat) : Decidable (IsHexDigit c n) := inferInstanceAs (Decidable (_ ∧ _))

/-- Four hexadecimal digits and the number that they make. -/
inductive IsFourHex : List Char → Nat → Prop
  | digits {a b c d : Char} {w x y z : Nat} : IsHexDigit a w → IsHexDigit b x → IsHexDigit c y →
      IsHexDigit d z → IsFourHex [a, b, c, d] (w * 4096 + x * 256 + y * 16 + z)

/-! ### Strings -/

/-- The characters that may stand behind a backslash, with the ones that they stand for. -/
def simpleEscapes : List (Char × Char) :=
  [('"', '"'), ('\\', '\\'), ('/', '/'), ('b', '\x08'), ('f', '\x0c'), ('n', '\n'), ('r', '\r'), ('t', '\t')]

/-- A character of a string, or an escape. -/
inductive IsUnit : List Char → Prop
  | plain {c : Char} : 0x20 ≤ c.toNat → c ≠ '"' → c ≠ '\\' → IsUnit [c]
  | simple {e c : Char} : (e, c) ∈ simpleEscapes → IsUnit ['\\', e]
  | hex {digits : List Char} {n : Nat} : IsFourHex digits n → IsUnit ('\\' :: 'u' :: digits)

/-- What stands between the quotes of a string. -/
inductive IsBody : List Char → Prop
  | nil : IsBody []
  | cons {one rest : List Char} : IsUnit one → IsBody rest → IsBody (one ++ rest)

/-- The spellings of a character.  One beyond the first plane takes a pair of escapes. -/
inductive SpellsChar (c : Char) : List Char → Prop
  | plain : 0x20 ≤ c.toNat → c ≠ '"' → c ≠ '\\' → SpellsChar c [c]
  | simple {e : Char} : (e, c) ∈ simpleEscapes → SpellsChar c ['\\', e]
  | hex {digits : List Char} : IsFourHex digits c.toNat → SpellsChar c ('\\' :: 'u' :: digits)
  | pair {lead trail : List Char} : 0x10000 ≤ c.toNat →
      IsFourHex lead (0xD800 + (c.toNat - 0x10000) / 0x400) →
      IsFourHex trail (0xDC00 + (c.toNat - 0x10000) % 0x400) →
      SpellsChar c (('\\' :: 'u' :: lead) ++ '\\' :: 'u' :: trail)

/-- The spellings of a text between quotes. -/
inductive Spells : List Char → List Char → Prop
  | nil : Spells [] []
  | cons {c : Char} {text one rest : List Char} :
      SpellsChar c one → Spells text rest → Spells (c :: text) (one ++ rest)

/-- What spells a text can stand between the quotes of a string. -/
theorem Spells.isBody {text body : List Char} (spells : Spells text body) : IsBody body := by
  induction spells with
  | nil => exact .nil
  | cons first _ ih =>
      cases first with
      | plain visible quote slash => exact .cons (.plain visible quote slash) ih
      | simple known => exact .cons (.simple known) ih
      | hex digits => exact .cons (.hex digits) ih
      | pair _ lead trail =>
          rw [List.append_assoc]
          exact .cons (.hex lead) (.cons (.hex trail) ih)

/-- A string with its quotes. -/
def quoted (body : List Char) : List Char := '"' :: body ++ ['"']

/-! ### Numbers -/

/-- Decimal digits, at least one. -/
structure IsDigits (text : List Char) : Prop where
  nonempty : text ≠ []
  digits : ∀ c ∈ text, '0' ≤ c ∧ c ≤ '9'

/-- Digits without needless zeros in front. -/
structure IsInteger (text : List Char) : Prop extends IsDigits text where
  short : text.head? = some '0' → text = ['0']

/-- The part of a number behind its point, with the point. -/
inductive IsFraction : List Char → Prop
  | none : IsFraction []
  | point {digits : List Char} : IsDigits digits → IsFraction ('.' :: digits)

/-- The power of ten of a number, with the letter in front of it. -/
inductive IsExponent : List Char → Prop
  | none : IsExponent []
  | power {letter : Char} {sign digits : List Char} : letter = 'e' ∨ letter = 'E' →
      sign = [] ∨ sign = ['+'] ∨ sign = ['-'] → IsDigits digits → IsExponent (letter :: (sign ++ digits))

/-- A number without its sign. -/
inductive IsMagnitude : List Char → Prop
  | parts {integer fraction exponent : List Char} : IsInteger integer → IsFraction fraction →
      IsExponent exponent → IsMagnitude (integer ++ fraction ++ exponent)

/-! ### Values -/

/-- A value of a list, with the white space around it. -/
structure Item where
  before : List Char
  value : List Char
  after : List Char

/-- A member of an object, with the white space around its tokens.  The key stands without its quotes. -/
structure Member where
  before : List Char
  key : List Char
  behindKey : List Char
  beforeValue : List Char
  value : List Char
  after : List Char

namespace Item

def text (item : Item) : List Char := item.before ++ (item.value ++ item.after)

/-- Whether there is nothing but white space around the value. -/
structure IsSpaced (item : Item) : Prop where
  before : IsBlank item.before
  after : IsBlank item.after

end Item

namespace Member

/-- A member behind its first white space. -/
def tail (m : Member) : List Char :=
  quoted m.key ++ (m.behindKey ++ ':' :: (m.beforeValue ++ (m.value ++ m.after)))

def text (m : Member) : List Char := m.before ++ m.tail

/-- Whether there is nothing but white space around the tokens. -/
structure IsSpaced (m : Member) : Prop where
  before : IsBlank m.before
  behindKey : IsBlank m.behindKey
  beforeValue : IsBlank m.beforeValue
  after : IsBlank m.after

end Member

/-- Texts with commas between them. -/
def separated (texts : List (List Char)) : List Char := [','].intercalate texts

/-- A list.  The white space is for the empty one; in any other it adds to that of the first item. -/
def listText (blank : List Char) (items : List Item) : List Char :=
  '[' :: blank ++ separated (items.map Item.text) ++ [']']

/-- An object. -/
def objectText (blank : List Char) (members : List Member) : List Char :=
  '\x7b' :: blank ++ separated (members.map Member.text) ++ ['\x7d']

/-- The values of JSON. -/
inductive IsValue : List Char → Prop
  | word {word : String} : word ∈ ["null", "true", "false"] → IsValue word.toList
  | number {text : List Char} : IsMagnitude text → IsValue text
  | negative {text : List Char} : IsMagnitude text → IsValue ('-' :: text)
  | string {body : List Char} : IsBody body → IsValue (quoted body)
  | list {blank : List Char} {items : List Item} : IsBlank blank → (∀ item ∈ items, item.IsSpaced) →
      (∀ item ∈ items, IsValue item.value) → IsValue (listText blank items)
  | object {blank : List Char} {members : List Member} : IsBlank blank → (∀ m ∈ members, m.IsSpaced) →
      (∀ m ∈ members, IsBody m.key) → (∀ m ∈ members, IsValue m.value) → IsValue (objectText blank members)

end ComponentLowering.Json
