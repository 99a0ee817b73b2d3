/-
# Forms of literals

The forms in which an annotation can write a text, a list, an object or a call, and for each of the readers
of literals that it accepts exactly these.  Parentheses are expressions of their own: what stands in them
has none of the forms.
-/
import ComponentLowering.Component.Literal
import Mathlib.Data.List.Forall2

namespace ComponentLowering.Component

open ComponentLowering.Style ComponentLowering.Syntax ComponentLowering.Text

/-- A computation in two steps succeeds if both steps do. -/
theorem bind_eq_ok_iff {ε α β : Type} {x : Except ε α} {f : α → Except ε β} {b : β} :
    (x >>= f) = .ok b ↔ ∃ a, x = .ok a ∧ f a = .ok b := by
  cases x with
  | error fault => simp [bind, Except.bind]
  | ok a => simp [bind, Except.bind]

/-! ### Texts -/

/-- A string literal, or a template without splices that has a value. -/
inductive IsText : Expr → String → Prop
  | string {span : Span} (value : StringValue) : IsText (.string span value) value.text
  | template {span : Span} {chunk : TemplateChunk} {text : String}
      (cooked : chunk.cooked = some text) : IsText (.template span [chunk] []) text

variable {e : Expr} {text : String}

theorem string_eq_ok_iff : Literal.string e = .ok text ↔ IsText e text := by
  constructor
  · intro h
    unfold Literal.string at h
    split at h
    · cases h
      exact .string _
    · split at h
      · rename_i cooked
        cases h
        exact .template cooked
      · cases h
    · cases h
  · rintro (_ | cooked)
    · rfl
    · simp [Literal.string, cooked]

theorem string_eq_error {fault : LiteralFault} (h : Literal.string e = .error fault) (text : String) :
    ¬ IsText e text := by
  rw [← string_eq_ok_iff, h]
  exact nofun

theorem IsText.unique {other : String} (h : IsText e text) (h' : IsText e other) : text = other := by
  rw [← string_eq_ok_iff] at h h'
  exact Except.ok.inj (h.symm.trans h')

/-! ### Objects -/

/-- A key that is an identifier or a string literal. -/
inductive IsPlainKey : Key → String → Prop
  | name {span : Span} (name : String) : IsPlainKey (.name span name) name
  | string {span : Span} (value : StringValue) : IsPlainKey (.string span value) value.text

/-- A member of an object literal with a plain key.  The value of a method is its function. -/
inductive IsEntry : Expr → String × Expr → Prop
  | property {span : Span} {key : Key} {value : Expr} {shorthand : Bool} {name : String}
      (plain : IsPlainKey key name) : IsEntry (.property span key value shorthand) (name, value)
  | method {span : Span} {kind : MethodKind} {key : Key} {fn : Func} {name : String}
      (plain : IsPlainKey key name) : IsEntry (.objectMethod span kind key fn) (name, .function fn)

/-- An object literal whose members all have plain keys: none is spread, and no key is computed. -/
inductive IsObjectOf : Expr → List (String × Expr) → Prop
  | object {span : Span} {members : List Expr} {entries : List (String × Expr)}
      (plain : List.Forall₂ IsEntry members entries) : IsObjectOf (.object span members) entries

theorem keyName_eq_ok_iff {key : Key} {name : String} :
    Literal.keyName key = .ok name ↔ IsPlainKey key name := by
  constructor
  · intro h
    cases key <;> cases h
    · exact .name _
    · exact .string _
  · rintro (_ | _) <;> rfl

theorem memberEntries_eq_ok_iff {members : List Expr} {entries : List (String × Expr)} :
    Literal.memberEntries members = .ok entries ↔ List.Forall₂ IsEntry members entries := by
  induction members generalizing entries with
  | nil => simp [Literal.memberEntries, eq_comm]
  | cons e rest ih =>
      rw [List.forall₂_cons_left_iff]
      cases e with
      | property span key value shorthand =>
          simp only [Literal.memberEntries, bind_eq_ok_iff, pure, Except.pure, Except.ok.injEq,
            keyName_eq_ok_iff, ih]
          constructor
          · rintro ⟨name, plain, more, read, rfl⟩
            exact ⟨_, more, .property plain, read, rfl⟩
          · rintro ⟨_, more, ⟨plain⟩, read, rfl⟩
            exact ⟨_, plain, more, read, rfl⟩
      | objectMethod span kind key fn =>
          simp only [Literal.memberEntries, bind_eq_ok_iff, pure, Except.pure, Except.ok.injEq,
            keyName_eq_ok_iff, ih]
          constructor
          · rintro ⟨name, plain, more, read, rfl⟩
            exact ⟨_, more, .method plain, read, rfl⟩
          · rintro ⟨_, more, _ | ⟨plain⟩, read, rfl⟩
            exact ⟨_, plain, more, read, rfl⟩
      | _ =>
          simp only [Literal.memberEntries, reduceCtorEq, false_iff]
          rintro ⟨_, _, ⟨⟩, _⟩

theorem entries_eq_ok_iff {entries : List (String × Expr)} :
    Literal.entries e = .ok entries ↔ IsObjectOf e entries := by
  constructor
  · intro h
    unfold Literal.entries at h
    split at h
    · exact .object (memberEntries_eq_ok_iff.mp h)
    · cases h
  · rintro ⟨plain⟩
    exact memberEntries_eq_ok_iff.mpr plain

theorem object_eq_ok_iff {config : List (String × Expr)} :
    Literal.object e = .ok config ↔ ∃ entries, IsObjectOf e entries ∧ config = ofPairs entries := by
  simp only [← entries_eq_ok_iff, Literal.object]
  cases Literal.entries e with
  | error fault => simp [Except.map]
  | ok entries => simp [Except.map, eq_comm]

/-! ### Arrays and calls -/

/-- What is spread where it stands. -/
inductive IsSpread : Expr → Prop
  | spread {span : Span} {value : Expr} : IsSpread (.spread span value)

/-- The place of an element that is missing. -/
inductive IsHole : Expr → Prop
  | hole {span : Span} : IsHole (.hole span)

/-- A list whose items all have to pass a check, when the first one does. -/
theorem cons_eq_ok_iff {P : Expr → Prop} {rest plain : List Expr}
    {others : Except LiteralFault (List Expr)} (first : P e)
    (read : ∀ {more}, others = .ok more ↔ more = rest ∧ ∀ e ∈ rest, P e) :
    (do return e :: (← others)) = .ok plain ↔ plain = e :: rest ∧ ∀ e' ∈ e :: rest, P e' := by
  rw [List.forall_mem_cons, and_iff_right first]
  constructor
  · intro h
    obtain ⟨more, others, ⟨⟩⟩ := bind_eq_ok_iff.mp h
    obtain ⟨rfl, holds⟩ := read.mp others
    exact ⟨rfl, holds⟩
  · rintro ⟨rfl, holds⟩
    exact bind_eq_ok_iff.mpr ⟨rest, read.mpr ⟨rfl, holds⟩, rfl⟩

theorem plainElements_eq_ok_iff {elements plain : List Expr} :
    Literal.plainElements elements = .ok plain ↔
      plain = elements ∧ ∀ e ∈ elements, ¬ IsSpread e ∧ ¬ IsHole e := by
  induction elements generalizing plain with
  | nil => simp [Literal.plainElements, eq_comm]
  | cons e rest ih =>
      cases e with
      | spread span value =>
          simp only [Literal.plainElements, reduceCtorEq, false_iff]
          exact fun h => (h.2 _ List.mem_cons_self).1 .spread
      | hole span =>
          simp only [Literal.plainElements, reduceCtorEq, false_iff]
          exact fun h => (h.2 _ List.mem_cons_self).2 .hole
      | _ => exact cons_eq_ok_iff (P := fun e => ¬ IsSpread e ∧ ¬ IsHole e) ⟨nofun, nofun⟩ ih

theorem array_eq_ok_iff {plain : List Expr} :
    Literal.array e = .ok plain ↔
      (∃ span, e = .array span plain) ∧ ∀ e' ∈ plain, ¬ IsSpread e' ∧ ¬ IsHole e' := by
  unfold Literal.array
  split
  · rename_i span elements
    rw [plainElements_eq_ok_iff]
    constructor
    · rintro ⟨rfl, holds⟩
      exact ⟨⟨_, rfl⟩, holds⟩
    · rintro ⟨⟨_, ⟨⟩⟩, holds⟩
      exact ⟨rfl, holds⟩
  · rename_i other
    simp only [reduceCtorEq, false_iff]
    rintro ⟨⟨_, rfl⟩, -⟩
    exact other _ _ rfl

theorem plainArguments_eq_ok_iff {args plain : List Expr} :
    Literal.plainArguments args = .ok plain ↔ plain = args ∧ ∀ e ∈ args, ¬ IsSpread e := by
  induction args generalizing plain with
  | nil => simp [Literal.plainArguments, eq_comm]
  | cons e rest ih =>
      cases e with
      | spread span value =>
          simp only [Literal.plainArguments, reduceCtorEq, false_iff]
          exact fun h => h.2 _ List.mem_cons_self .spread
      | _ => exact cons_eq_ok_iff (P := fun e => ¬ IsSpread e) nofun ih

/-- The call of something with arguments none of which is spread. -/
inductive IsCallWith : Expr → List Expr → Prop
  | call {span : Span} {callee : Expr} {typeArgs : List TypeNode} {args : List Expr}
      {optional isPure : Bool} (plain : ∀ e ∈ args, ¬ IsSpread e) :
      IsCallWith (.call span callee typeArgs args optional isPure) args

theorem arguments_eq_ok_iff {args : List Expr} :
    Literal.arguments e = .ok args ↔ IsCallWith e args := by
  constructor
  · intro h
    unfold Literal.arguments at h
    split at h
    · obtain ⟨rfl, plain⟩ := plainArguments_eq_ok_iff.mp h
      exact .call plain
    · cases h
  · rintro ⟨plain⟩
    exact plainArguments_eq_ok_iff.mpr ⟨rfl, plain⟩

end ComponentLowering.Component
