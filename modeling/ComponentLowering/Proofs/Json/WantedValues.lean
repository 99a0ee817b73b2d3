/-
# Values that are asked for

A string that is asked for is read as the text that it spells, and a choice by the word that it spells.  Where any
other value stands, a reader fails or takes exactly the value, so it never goes on in the middle of one.
-/
import ComponentLowering.Proofs.Json.ReadTexts

namespace ComponentLowering.Json

open ComponentLowering.Text Reader

variable {α β : Type} {r : Reader α} {f : α → Reader β} {a : α} {text before mid rest body value : List Char}
  {P : α → List Char → Prop} {Q : β → List Char → Prop} {word expected : String} {words : List (String × α)}

/-! ### Values as they are expected -/

theorem reads_string (spells : Spells text body) (blank : IsBlank before) :
    Reads (string expected) (before ++ (quoted body ++ rest)) (String.ofList text) rest := by
  unfold string
  simp only [quoted, List.cons_append, List.append_assoc]
  exact (reads_next?_cons blank (by decide)).bind (reads_advance.bind (reads_stringRest spells))

/-- A word that is known is read as the value that it stands for. -/
theorem reads_oneOf (spells : Spells word.toList body) (blank : IsBlank before)
    (known : words.find? (·.1 == word) = some (word, a)) :
    Reads (oneOf words) (before ++ (quoted body ++ rest)) a rest := by
  unfold oneOf
  simp only [quoted, List.cons_append, List.append_assoc]
  refine (reads_next?_cons blank (by decide)).bind (reads_advance.bind ?_)
  refine (reads_stringRest spells).bind ?_
  rw [String.ofList_toList]
  unfold choose
  rw [known]
  exact reads_pure _ _

/-! ### Readers that may fail -/

/-- What a reader leaves behind if it does not fail: its value and the rest of the text. -/
def Leaves (r : Reader α) (text : List Char) (P : α → List Char → Prop) : Prop :=
  ∀ offset a stop, r.run ⟨text, offset⟩ = .ok (a, stop) → P a stop.rest

/-- Whether a reader always fails. -/
def Fails (r : Reader α) (text : List Char) : Prop := Leaves r text fun _ _ => False

theorem leaves_anything (r : Reader α) (text : List Char) : Leaves r text fun _ _ => True :=
  fun _ _ _ _ => trivial

theorem Reads.leaves (h : Reads r text a rest) (h' : P a rest) : Leaves r text P := by
  intro offset a' stop run
  obtain ⟨stop', run'⟩ := h offset
  rw [run'] at run
  cases run
  exact h'

theorem Leaves.mono {P' : α → List Char → Prop} (h : Leaves r text P) (h' : ∀ a rest, P a rest → P' a rest) :
    Leaves r text P' := fun offset a stop run => h' a stop.rest (h offset a stop run)

theorem Leaves.bind (h : Leaves r text P) (h' : ∀ a rest, P a rest → Leaves (f a) rest Q) :
    Leaves (r >>= f) text Q := by
  intro offset b stop run
  rw [StateT.run_bind] at run
  cases first : r.run ⟨text, offset⟩ with
  | error fault =>
      rw [first] at run
      cases run
  | ok found =>
      obtain ⟨a, cursor⟩ := found
      rw [first] at run
      exact h' a cursor.rest (h offset a cursor first) cursor.offset b stop run

theorem Reads.bind_leaves (h : Reads r text a mid) (h' : Leaves (f a) mid Q) : Leaves (r >>= f) text Q :=
  (h.leaves (P := fun a' rest => a' = a ∧ rest = mid) ⟨rfl, rfl⟩).bind fun _ _ ⟨same, same'⟩ => by
    rw [same, same']
    exact h'

theorem Fails.leaves (h : Fails r text) : Leaves r text P := fun offset a stop run => (h offset a stop run).elim

theorem Fails.bind (h : Fails r text) : Leaves (r >>= f) text Q := Leaves.bind h fun _ _ => False.elim

theorem leaves_get {f : Cursor → Reader β} (h : ∀ offset, Leaves (f ⟨text, offset⟩) text Q) :
    Leaves (get >>= f) text Q := fun offset b stop run => h offset offset b stop run

theorem leaves_throw (fault : Fault) : Leaves (throw fault : Reader α) text P := fun _ _ _ run => by cases run

theorem leaves_failHere (cause : FaultCause) : Leaves (failHere cause : Reader α) text P :=
  leaves_get fun _ => leaves_throw _

theorem leaves_failNext (cause : FaultCause) : Leaves (failNext cause : Reader α) text P :=
  leaves_get fun _ => leaves_throw _

theorem leaves_pure (h : P a text) : Leaves (pure a) text P := (reads_pure a text).leaves h

/-- A reader that fails at its end fails. -/
theorem Leaves.thenFails {r : Reader PUnit} {f : PUnit → Reader β} (h : ∀ rest, Fails (f ⟨⟩) rest) :
    Fails (r >>= f) text :=
  (leaves_anything r text).bind fun _ rest _ => h rest

/-- What is refused is never read. -/
theorem fails_refuse (expected : String) (text : List Char) : Fails (refuse expected : Reader α) text := by
  unfold refuse
  refine leaves_get fun offset => ?_
  dsimp only
  split
  · exact Leaves.thenFails fun _ => Leaves.thenFails fun _ => leaves_failHere _
  · exact Leaves.thenFails fun _ => Leaves.thenFails fun _ => leaves_failHere _
  · exact Leaves.thenFails fun _ => Leaves.thenFails fun _ => leaves_failHere _
  · exact Leaves.thenFails fun _ => (leaves_anything _ _).bind fun _ _ _ => leaves_failHere _
  · exact leaves_failHere _
  · exact leaves_failHere _
  · split
    · exact leaves_throw _
    · exact Leaves.thenFails fun _ => leaves_failHere _
  · split
    · split
      · exact leaves_throw _
      · exact Leaves.thenFails fun _ => leaves_failHere _
    · exact leaves_failNext _
  · exact leaves_failNext _

/-! ### Other values -/

/-- The second half of a pair can only stand as an escape. -/
theorem stringFrom_alone (first offset : Nat) (noEscape : ∀ more, text ≠ '\\' :: 'u' :: more) :
    ∃ fault, stringFrom true (some first) offset text = .error fault := by
  unfold stringFrom
  split
  · exact ⟨_, rfl⟩
  · exact absurd rfl (noEscape _)
  · split
    · exact ⟨_, rfl⟩
    · exact absurd rfl (noEscape _)
    · exact ⟨_, rfl⟩
  · exact ⟨_, rfl⟩

theorem ok_of_consed {one : Char} {x : Except Fault (List Char × Cursor)} {stop : Cursor}
    (run : (x >>= fun (cs, stop) => pure (one :: cs, stop)) = .ok (text, stop)) :
    ∃ later, x = .ok (later, stop) := by
  cases x with
  | error fault => cases run
  | ok found =>
      cases run
      exact ⟨_, rfl⟩

/-- Where surrogates stand in pairs, a string is read up to its closing quote or not at all. -/
theorem stringFrom_leaves (isBody : IsBody body) {lead : Option Nat} {offset : Nat} {stop : Cursor}
    (run : stringFrom true lead offset (body ++ '"' :: rest) = .ok (text, stop)) : stop.rest = rest := by
  -- A first half waits for an escape, so in front of anything else there is none.
  have unpaired {text text' : List Char} {lead : Option Nat} {offset : Nat}
      (noEscape : ∀ more, text ≠ '\\' :: 'u' :: more)
      (run : stringFrom true lead offset text = .ok (text', stop)) : lead = none := by
    cases lead with
    | none => rfl
    | some first =>
        obtain ⟨fault, fails⟩ := stringFrom_alone first offset noEscape
        rw [fails] at run
        cases run
  induction isBody generalizing lead offset text with
  | nil =>
      obtain rfl := unpaired (fun more eq => absurd (List.cons.inj eq).1 (by decide)) run
      cases run
      rfl
  | @cons one body first _ ih =>
      cases first with
      | plain visible quote slash =>
          rw [List.singleton_append, List.cons_append] at run
          obtain rfl := unpaired (fun more eq => slash (List.cons.inj eq).1) run
          rw [stringFrom_plain visible quote slash] at run
          obtain ⟨later, run⟩ := ok_of_consed run
          exact ih run
      | @simple e c known =>
          simp only [List.cons_append, List.nil_append] at run
          have letter : e ≠ 'u' := by
            rintro rfl
            simp [simpleEscapes] at known
          obtain rfl := unpaired (fun more eq => letter (List.cons.inj (List.cons.inj eq).2).1) run
          rw [stringFrom_simple known] at run
          obtain ⟨later, run⟩ := ok_of_consed run
          exact ih run
      | hex digits =>
          simp only [List.cons_append, List.append_assoc] at run
          rw [stringFrom_strict digits] at run
          split at run
          · split at run
            · obtain ⟨later, run⟩ := ok_of_consed run
              exact ih run
            · cases run
          · split at run
            · cases run
            · split at run
              · exact ih run
              · obtain ⟨later, run⟩ := ok_of_consed run
                exact ih run

theorem leaves_stringRest (isBody : IsBody body) :
    Leaves (stringRest true) (body ++ '"' :: rest) fun _ left => left = rest := by
  unfold stringRest
  refine leaves_get fun offset => ?_
  dsimp only
  cases run : stringFrom true none offset (body ++ '"' :: rest) with
  | error fault => exact leaves_throw fault
  | ok found =>
      obtain ⟨cs, stop⟩ := found
      exact (reads_set _ stop).bind_leaves (leaves_pure (stringFrom_leaves isBody run))

/-- What a value is, by its first character. -/
inductive ValueShape : List Char → Prop
  | null : ValueShape "null".toList
  | string {body : List Char} : IsBody body → ValueShape (quoted body)
  | object {blank : List Char} {members : List Member} : IsBlank blank → (∀ m ∈ members, m.IsSpaced) →
      (∀ m ∈ members, IsBody m.key) → (∀ m ∈ members, IsValue m.value) → ValueShape (objectText blank members)
  | other {c : Char} {more : List Char} : ¬IsSpace c → c ≠ 'n' → c ≠ '"' → c ≠ '\x7b' → ValueShape (c :: more)

theorem IsValue.shape (isValue : IsValue value) : ValueShape value := by
  cases isValue with
  | word known =>
      simp only [List.mem_cons, List.not_mem_nil, or_false] at known
      rcases known with rfl | rfl | rfl
      · exact .null
      · exact .other (by decide) (by decide) (by decide) (by decide)
      · exact .other (by decide) (by decide) (by decide) (by decide)
  | number isMagnitude =>
      obtain ⟨d, more, rfl, isDigit⟩ := isMagnitude.exists_digit
      refine .other (not_isSpace_of_isDigit isDigit) ?_ ?_ ?_
      all_goals
        rintro rfl
        cases isDigit
  | negative _ | list _ _ _ => exact .other (by decide) (by decide) (by decide) (by decide)
  | string isBody => exact .string isBody
  | object blank spaced keys values => exact .object blank spaced keys values

/-- Where a string is asked for, a value is taken as a whole or refused. -/
theorem leaves_string (isValue : IsValue value) (blank : IsBlank before) :
    Leaves (string expected) (before ++ (value ++ rest)) fun _ left => left = rest := by
  unfold string
  cases isValue.shape with
  | string isBody =>
      simp only [quoted, List.cons_append, List.append_assoc]
      exact (reads_next?_cons blank (by decide)).bind_leaves
        (reads_advance.bind_leaves (leaves_stringRest isBody))
  | null => exact (reads_next?_cons blank (by decide)).bind_leaves (fails_refuse _ _).leaves
  | object => exact (reads_next?_cons blank (by decide)).bind_leaves (fails_refuse _ _).leaves
  | @other c more visible _ quote _ =>
      refine (reads_next?_cons blank visible).bind_leaves ?_
      split
      · rename_i found
        exact absurd (Option.some.inj found) quote
      · exact (fails_refuse _ _).leaves
      · exact leaves_failNext _

/-- A null is taken as a whole, any other value refused. -/
theorem leaves_unit (isValue : IsValue value) (blank : IsBlank before) :
    Leaves Reader.unit (before ++ (value ++ rest)) fun _ left => left = rest := by
  unfold Reader.unit
  cases isValue.shape with
  | null =>
      exact (reads_next?_cons blank (by decide)).bind_leaves
        (reads_advance.bind_leaves ((reads_wordRest "ull".toList rest).leaves rfl))
  | string => exact (reads_next?_cons blank (by decide)).bind_leaves (fails_refuse _ _).leaves
  | object => exact (reads_next?_cons blank (by decide)).bind_leaves (fails_refuse _ _).leaves
  | @other c more visible letter _ _ =>
      refine (reads_next?_cons blank visible).bind_leaves ?_
      split
      · rename_i found
        exact absurd (Option.some.inj found) letter
      · exact (fails_refuse _ _).leaves
      · exact leaves_failNext _

theorem leaves_choose (words : List (String × α)) (word : String) (text : List Char) :
    Leaves (choose words word) text fun _ left => left = text := by
  unfold choose
  split
  · exact leaves_pure rfl
  · exact leaves_failHere _

/-- Where a choice is asked for, a value is taken as a whole or refused. -/
theorem leaves_oneOf (words : List (String × α)) (isValue : IsValue value) (blank : IsBlank before) :
    Leaves (oneOf words) (before ++ (value ++ rest)) fun _ left => left = rest := by
  unfold oneOf
  cases isValue.shape with
  | null => exact (reads_next?_cons blank (by decide)).bind_leaves (leaves_failNext _)
  | string isBody =>
      simp only [quoted, List.cons_append, List.append_assoc]
      refine (reads_next?_cons blank (by decide)).bind_leaves (reads_advance.bind_leaves ?_)
      exact (leaves_stringRest isBody).bind fun word left same => same ▸ leaves_choose words word left
  | @object inner members isBlank spaced keys values =>
      cases members with
      | nil =>
          simp only [objectText, List.cons_append, List.append_assoc]
          refine (reads_next?_cons blank (by decide)).bind_leaves (reads_advance.bind_leaves ?_)
          exact (reads_next?_cons isBlank (by decide)).bind_leaves (Fails.bind (leaves_failNext _))
      | cons m more =>
          have here := spaced m (List.mem_cons_self ..)
          rw [objectText_cons]
          simp only [Member.tail, quoted, List.cons_append, List.append_assoc]
          refine (reads_next?_cons blank (by decide)).bind_leaves (reads_advance.bind_leaves ?_)
          have first : IsBlank (inner ++ m.before) := isBlank.append here.before
          rw [← List.append_assoc]
          refine (reads_next?_cons first (by decide)).bind_leaves (reads_advance.bind_leaves ?_)
          refine (leaves_stringRest (keys m (List.mem_cons_self ..))).bind fun key left same => ?_
          subst same
          refine (leaves_choose words key _).bind fun value left same => ?_
          subst same
          refine (reads_colon here.behindKey).bind_leaves ?_
          refine (leaves_unit (values m (List.mem_cons_self ..)) here.beforeValue).bind fun _ left same => ?_
          subst same
          cases more with
          | nil =>
              exact (reads_next?_cons here.after (by decide)).bind_leaves
                (reads_advance.bind_leaves (leaves_pure rfl))
          | cons next more =>
              exact (reads_next?_cons here.after (by decide)).bind_leaves (leaves_failHere _)
  | @other c more visible _ quote brace =>
      refine (reads_next?_cons blank visible).bind_leaves ?_
      split
      · rename_i found
        exact absurd (Option.some.inj found) quote
      · rename_i found
        exact absurd (Option.some.inj found) brace
      · exact leaves_failNext _
      · exact leaves_failNext _

end ComponentLowering.Json
