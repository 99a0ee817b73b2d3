/-
# Attaching styles

The statement that attaches style sheets to a class, as it is written and as it is read.
-/
import ComponentLowering.Proofs.Style.SheetImports
import ComponentLowering.Proofs.Syntax.Refused

namespace ComponentLowering.Style

open ComponentLowering.Code ComponentLowering.Settings ComponentLowering.Syntax
open ComponentLowering.Syntax.Parser ComponentLowering.Text

variable {text rest : List Char} {lexemes : List Lexeme}

/-! ### Items without repetitions -/

theorem distinct_filter (p : String → Bool) (items : List String) :
    distinct (items.filter p) = (distinct items).filter p := by
  induction items with
  | nil => rfl
  | cons a rest ih =>
      by_cases keep : p a
      · rw [List.filter_cons_of_pos keep, distinct, distinct, List.filter_cons_of_pos keep, ih,
          List.filter_filter, List.filter_filter]
        simp only [Bool.and_comm]
      · have gone : ∀ b, (p b && b != a) = p b := by
          intro b
          by_cases same : b = a
          · simp [same, keep]
          · simp [same]
        rw [List.filter_cons_of_neg keep, distinct, List.filter_cons_of_neg keep, ih,
          List.filter_filter]
        simp only [gone]

/-- The items of a list stay in the order in which they occur first. -/
theorem distinct_eq_eraseDups (items : List String) : distinct items = items.eraseDups := by
  match items with
  | [] => rfl
  | a :: rest =>
      have shorter := List.length_filter_le (fun b => !b == a) rest
      rw [distinct, List.eraseDups_cons, ← distinct_eq_eraseDups, distinct_filter]
      rfl
termination_by items.length

theorem mem_distinct {a : String} {items : List String} : a ∈ distinct items ↔ a ∈ items := by
  rw [distinct_eq_eraseDups, List.mem_eraseDups]

/-- Renaming items one to one keeps what is repeated. -/
theorem distinct_map {f : String → String} {items : List String}
    (injective : ∀ a ∈ items, ∀ b ∈ items, f a = f b → a = b) :
    distinct (items.map f) = (distinct items).map f := by
  induction items with
  | nil => rfl
  | cons a rest ih =>
      rw [List.map_cons, distinct, distinct, List.map_cons,
        ih fun b hb c hc => injective b (.tail _ hb) c (.tail _ hc), List.filter_map]
      congr 2
      refine List.filter_congr fun b hb => ?_
      have mem := mem_distinct.mp hb
      have iff : f b = f a ↔ b = a := ⟨injective b (.tail _ mem) a (.head _), congrArg f⟩
      simp [bne, iff]

/-! ### Sums -/

/-- The sum of some names. -/
def sumTree (names : List String) : Expr :=
  names.tail.foldl (fun e n => .binary .detached .add e (.ident .detached n))
    (.ident .detached (names.headD ""))

/-- The same sum as lexemes. -/
def sumLexemes : List String → List Lexeme
  | [] => []
  | first :: more => .word first false :: more.flatMap fun n => [.mark "+", .word n false]

theorem forms_sum {names : List String} (nonempty : names ≠ [])
    (plain : ∀ n ∈ names, IsPlainName n) : Forms .sum (sumLexemes names) (sumTree names) := by
  have add (more : List String) : ∀ (ls : List Lexeme) (e : Expr), Forms .sum ls e →
      (∀ n ∈ more, IsPlainName n) →
      Forms .sum (ls ++ more.flatMap fun n => [.mark "+", .word n false])
        (more.foldl (fun e n => .binary .detached .add e (.ident .detached n)) e) := by
    induction more with
    | nil => intro ls e forms _; simpa using forms
    | cons n more ih =>
        intro ls e forms plain
        obtain ⟨here, others⟩ := List.forall_mem_cons.mp plain
        simpa using ih _ _ (.add forms (.name here)) others
  cases names with
  | nil => contradiction
  | cons first more =>
      obtain ⟨here, others⟩ := List.forall_mem_cons.mp plain
      exact add more [.word first false] _ (.single (.name here)) others

theorem spells_sum {names : List String} (words : ∀ n ∈ names, isWordText n = true)
    (ends : EndsWord rest) (h : Spells rest lexemes) :
    Spells ((" + ".intercalate names).toList ++ rest) (sumLexemes names ++ lexemes) := by
  induction names with
  | nil => simpa [sumLexemes] using h
  | cons n names ih =>
      obtain ⟨here, others⟩ := List.forall_mem_cons.mp words
      cases names with
      | nil => simpa [sumLexemes] using h.word here ends
      | cons m names =>
          have spelled := (ih others).plus.space.word here endsWord_space
          simpa [String.intercalate_cons_cons, sumLexemes] using spelled

/-! ### Objects -/

/-- A key of an object, plain if it can be. -/
def keyTree (key : String) : Key :=
  if isIdentifierName key then .name .detached key else .string .detached (.ofString key)

/-- The same key as a lexeme. -/
def keyLexeme (key : String) : Lexeme :=
  if isIdentifierName key then .word key false else .string (.ofString key)

theorem keyForms (key : String) : KeyForms (keyLexeme key) (keyTree key) := by
  unfold keyLexeme keyTree
  split
  · exact .word key
  · exact .string _

theorem spells_propertyKey (key : String) (ends : EndsWord rest) (h : Spells rest lexemes) :
    Spells ((Code.propertyKey key).toList ++ rest) (keyLexeme key :: lexemes) := by
  unfold Code.propertyKey keyLexeme
  split
  · exact h.word (isWordText_of_isIdentifierName ‹_›) ends
  · exact h.string key

/-- A style sheet as a member of an object. -/
def memberOf (b : Binding) : MadeMember where
  key := keyLexeme (b.key.getD "")
  keyTree := keyTree (b.key.getD "")
  lexemes := [.word b.name false]
  value := .ident .detached b.name

/-- Style sheets as an object. -/
def objectTree (bindings : List Binding) : Expr :=
  .object .detached (bindings.map fun b => (memberOf b).tree)

/-- The same object as lexemes. -/
def objectLexemes (bindings : List Binding) : List Lexeme :=
  .mark "\x7b" :: (commaJoined (bindings.map fun b => (memberOf b).all) ++ [.mark "\x7d"])

theorem forms_object {bindings : List Binding} (plain : ∀ b ∈ bindings, IsPlainName b.name) :
    Forms .sum (objectLexemes bindings) (objectTree bindings) := by
  have object := Forms.object (bindings.map memberOf)
    (fun m hm => by
      obtain ⟨b, _, rfl⟩ := List.mem_map.mp hm
      exact keyForms (b.key.getD ""))
    (fun m hm => by
      obtain ⟨b, hb, rfl⟩ := List.mem_map.mp hm
      exact .single (.name (plain b hb)))
  rw [List.map_map, List.map_map] at object
  exact .single object

theorem spells_object {bindings : List Binding} (words : ∀ b ∈ bindings, isWordText b.name = true)
    (h : Spells rest lexemes) :
    Spells (("\x7b " ++ ", ".intercalate (bindings.map styleMember) ++ " \x7d").toList ++ rest)
      (objectLexemes bindings ++ lexemes) := by
  have each : ∀ b ∈ bindings, ∀ rest lexemes, EndsWord rest → Spells rest lexemes →
      Spells ((styleMember b).toList ++ rest) ((memberOf b).all ++ lexemes) := by
    intro b hb rest lexemes ends h
    have value := (h.word (words b hb) ends).space.mark (c := ':') (m := ":") (by decide)
    have member := spells_propertyKey (b.key.getD "") (endsWord_cons (by decide) (by decide) _) value
    simpa [styleMember, memberOf, MadeMember.all] using member
  have members := spells_commaItems each endsWord_space
    (h.mark (c := '\x7d') (m := "\x7d") (by decide)).space
  simpa [objectLexemes] using members.space.mark (c := '\x7b') (m := "\x7b") (by decide)

/-! ### The assignment -/

/-- The value that holds the styles of a class. -/
def styleTree (refs : Refs) (bindings : List Binding) : Expr :=
  match refs with
  | .sequence _ => sumTree (distinct (bindings.map (·.name)))
  | .mapping _ => objectTree bindings

/-- The same value as lexemes. -/
def styleLexemes (refs : Refs) (bindings : List Binding) : List Lexeme :=
  match refs with
  | .sequence _ => sumLexemes (distinct (bindings.map (·.name)))
  | .mapping _ => objectLexemes bindings

theorem forms_style {bindings : List Binding} (refs : Refs) (nonempty : bindings ≠ [])
    (names : ∀ b ∈ bindings, IsSheetName b.name) :
    Forms .sum (styleLexemes refs bindings) (styleTree refs bindings) := by
  cases refs with
  | sequence paths =>
      obtain ⟨b, more, rfl⟩ := List.exists_cons_of_ne_nil nonempty
      have some : distinct ((b :: more).map (·.name)) ≠ [] := by simp [distinct]
      refine forms_sum some fun n hn => ?_
      obtain ⟨b', hb', rfl⟩ := List.mem_map.mp (mem_distinct.mp hn)
      exact (names b' hb').isPlainName
  | mapping pairs => exact forms_object fun b hb => (names b hb).isPlainName

theorem spells_style {bindings : List Binding} (refs : Refs)
    (names : ∀ b ∈ bindings, IsSheetName b.name) (ends : EndsWord rest)
    (h : Spells rest lexemes) :
    Spells ((styleValue refs bindings).toList ++ rest) (styleLexemes refs bindings ++ lexemes) := by
  cases refs with
  | sequence paths =>
      refine spells_sum (fun n hn => ?_) ends h
      obtain ⟨b, hb, rfl⟩ := List.mem_map.mp (mem_distinct.mp hn)
      exact (names b hb).isWordText
  | mapping pairs => exact spells_object (fun b hb => (names b hb).isWordText) h

/-- The styles of a class. -/
def styleTarget (className : String) : Expr :=
  .member .detached (.ident .detached className) ⟨.detached, "style"⟩ false

/-- The statement that attaches a value to a class as its styles. -/
def styleAssignment (className : String) (value : Expr) : Stmt :=
  .expression .detached (madeAssignment (styleTarget className) value)

/-- The tokens of the same statement but for its semicolon. -/
def assignmentLexemes (className : String) (value : List Lexeme) : List Lexeme :=
  .word className false :: .mark "." :: .word "style" false :: .mark "=" :: value

theorem spells_assignment {className : String} {bindings : List Binding} (refs : Refs)
    (word : isWordText className = true) (names : ∀ b ∈ bindings, IsSheetName b.name) :
    Spells (className ++ ".style = " ++ styleValue refs bindings ++ ";").toList
      (assignmentLexemes className (styleLexemes refs bindings) ++ [.mark ";"]) := by
  have ends : EndsWord [';'] := endsWord_cons (by decide) (by decide) []
  have value := spells_style refs names ends (Spells.done.mark (c := ';') (m := ";") (by decide))
  have target := (value.equals.space.dotWord (n := "style") (by decide) endsWord_space).word word
    (endsWord_cons (by decide) (by decide) _)
  simpa [assignmentLexemes] using target

/-- Whatever the name of the class is, the assignment is an expression. -/
theorem takes_styleAssignment {className : String} {c : Surroundings} {depth : Nat}
    {value : List Lexeme} {e : Expr} {ls : List Lexeme} (plain : IsPlainName className)
    (forms : Forms .sum value e) (hdepth : value.length + 3 ≤ depth)
    (hc : Surroundings.IsOrdinary c) :
    Takes (rules (depth + 2)).assignment c (assignmentLexemes className value ++ .mark ";" :: ls)
      (.mark ";" :: ls) (·.detach = madeAssignment (styleTarget className) e) := by
  have target : Forms .operand [.word className false, .mark ".", .word "style" false]
      (styleTarget className) := .member (.name plain) "style"
  rw [assignment_rules]
  refine takes_assignmentExpr (.name plain.notReserved (by decide) (by decide) (by simp)) hc
    fun start => ?_
  exact takes_assignmentFrom_member (.member _ _) target (by simp; omega) hc
    (forms.takes (by omega) hc ⟨";", by decide, rfl⟩)

/-- The assignment is all of the text.  Behind the name `let` its semicolon is a statement of its
own. -/
theorem readsAll_assignment {className : String} {c : Surroundings} {depth : Nat}
    {value : List Lexeme} {e : Expr} (plain : IsPlainName className)
    (forms : Forms .sum value e) (hdepth : value.length + 3 ≤ depth) (single : c.isSingle = false)
    (hc : Surroundings.IsOrdinary c) :
    ∃ more, ReadsAll (rules (depth + 3)) c (assignmentLexemes className value ++ [.mark ";"])
      (styleAssignment className e :: more) ∧ ∀ t ∈ more, t = .empty .detached := by
  have assignment (c : Surroundings) (hc : Surroundings.IsOrdinary c) :=
    @takes_styleAssignment className c depth value e [] plain forms hdepth hc
  have head : (assignmentLexemes className value ++ [Lexeme.mark ";"]).head? =
      some (.word className false) := rfl
  by_cases isLet : className = "let"
  · subst isLet
    have semicolon : ReadsAll (rules (depth + 3)) c [.mark ";"] [.empty .detached] := by
      have first : Takes (rules (depth + 3)).statement c [.mark ";"] []
          (·.detach = .empty .detached) := by
        rw [statement_rules]
        exact takes_statement_empty
      exact .more (.inr rfl) (by simp) first .done
    refine ⟨[.empty .detached], .more (.inl ⟨_, head⟩) ?_ ?_ semicolon, by simp⟩
    · simp [assignmentLexemes]
    · rw [statement_rules]
      exact takes_statement_let single hc assignment
  · refine ⟨[], .more (.inl ⟨_, head⟩) (by simp) ?_ .done, by simp⟩
    rw [statement_rules]
    exact takes_statement_member plain single hc isLet assignment

/-- The text that attaches styles is read as the statement that does so. -/
theorem statement_assignment {className : String} {bindings : List Binding} (refs : Refs)
    (binding : isBindingName className = true) (notAwait : className ≠ "await")
    (names : ∀ b ∈ bindings, IsSheetName b.name) (nonempty : bindings ≠ []) :
    statement (className ++ ".style = " ++ styleValue refs bindings ++ ";") =
      .ok (styleAssignment className (styleTree refs bindings)) := by
  have word := isWordText_of_isBindingName binding
  have plain : IsPlainName className :=
    ⟨not_mem_reservedWords_of_isBindingName binding, notAwait⟩
  have spells := spells_assignment refs word names
  have long := spells.length_le
  simp only [assignmentLexemes, List.length_append, List.length_cons] at long
  have plainly : BeginsPlainly
      (className ++ ".style = " ++ styleValue refs bindings ++ ";").toList := by
    simpa using beginsPlainly_word word _
  generalize (className ++ ".style = " ++ styleValue refs bindings ++ ";") = text at *
  obtain ⟨more, reads, empty⟩ := @readsAll_assignment className (Module.surroundings .plain)
    (text.toList.length + 1) _ _ plain (forms_style refs nonempty names) (by omega) rfl ⟨rfl, rfl⟩
  have once : exportsOnce (styleAssignment className (styleTree refs bindings) :: more) = true := by
    refine exportsOnce_of_none fun t ht => ?_
    rcases List.mem_cons.mp ht with rfl | ht
    · rfl
    · rw [empty t ht]
      rfl
  have read := statements_eq spells plainly once reads
  unfold statement
  rw [read]
  rfl

/-- No styles are attached to a class called `await`, which waits there. -/
theorem statement_assignment_await {bindings : List Binding} (refs : Refs)
    (names : ∀ b ∈ bindings, IsSheetName b.name) :
    ∃ failure, statement ("await" ++ ".style = " ++ styleValue refs bindings ++ ";") =
      .error failure := by
  have spells := @spells_assignment "await" bindings refs (by decide) names
  have plainly : BeginsPlainly
      ("await" ++ ".style = " ++ styleValue refs bindings ++ ";").toList := by
    simpa using beginsPlainly_word (n := "await") (by decide) _
  generalize ("await" ++ ".style = " ++ styleValue refs bindings ++ ";") = text at *
  obtain ⟨failure, read⟩ := statements_error spells plainly fun s Q before => by
    rw [statement_rules]
    exact not_reaches_statement_await rfl rfl before
  refine ⟨failure, ?_⟩
  unfold statement
  rw [read]
  rfl

/-- What the text that attaches styles is read as, if it is read as anything. -/
theorem eq_styleAssignment_of_ok {className : String} {bindings : List Binding} {refs : Refs} {t : Stmt}
    (binding : isBindingName className = true) (names : ∀ b ∈ bindings, IsSheetName b.name)
    (nonempty : bindings ≠ [])
    (read : statement (className ++ ".style = " ++ styleValue refs bindings ++ ";") = .ok t) :
    t = styleAssignment className (styleTree refs bindings) := by
  by_cases await : className = "await"
  · obtain ⟨failure, error⟩ := statement_assignment_await refs names
    rw [← await, read] at error
    cases error
  · rw [statement_assignment refs binding await names nonempty] at read
    exact (Except.ok.inj read).symm

end ComponentLowering.Style
