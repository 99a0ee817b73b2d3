/-
# Snippets that are refused

Two words may name a class in a module but not in a snippet: `await` waits there, and `implements`
introduces interfaces.
-/
import ComponentLowering.Proofs.Syntax.MadeClasses

namespace ComponentLowering.Syntax

namespace Parser

variable {α : Type} {c : Surroundings} {s : Reading} {r : Rules} {ls : List Lexeme} {depth : Nat}

/-! ### Waiting -/

theorem not_reaches_name_await {Q : Ident → Reading → Prop} (hc : c.isAwait = true)
    (h : Before (.word "await" false :: ls) s) : ¬ Reaches name c s Q := by
  simp [name, reaches_bind, reaches_peek, h.cons, reaches_read, hc, reaches_failure]

/-- No operand begins with a dot. -/
theorem not_reaches_primary_dot {Q : Expr → Reading → Prop} (h : Before (.mark "." :: ls) s) :
    ¬ Reaches (primary r) c s Q := by
  simp [primary, reaches_bind, reaches_startOffset, reaches_peek, h.cons, reaches_failure]

theorem not_reaches_unaryExpr_dot {Q : Expr → Reading → Prop} (h : Before (.mark "." :: ls) s) :
    ¬ Reaches (unaryExpr r) c s Q := by
  have none : unaryOp? s.token = none ∧ updateOp? s.token = none ∧ s.token.isMark "<" = false ∧
      s.token.isWord "await" = false := by
    simp [unaryOp?, updateOp?, Token.isMark, Token.isWord, h.cons]
  obtain ⟨unary, update, angle, await⟩ := none
  unfold unaryExpr postfixedExpr leftHandExpr
  simp only [reaches_bind, reaches_startOffset, reaches_peek, unary, update, angle, await,
    Bool.false_eq_true, ↓reduceIte]
  exact not_reaches_primary_dot h

theorem unary_rules (depth : Nat) : (rules (depth + 1)).unary = unaryExpr (rules depth) := by
  funext c s
  rw [rules]

/-- What waits needs an operand. -/
theorem not_reaches_unaryExpr_await {Q : Expr → Reading → Prop} (hc : c.isAwait = true)
    (h : Before (.word "await" false :: .mark "." :: ls) s) :
    ¬ Reaches (unaryExpr (rules (depth + 1))) c s Q := by
  have escaped : s.token.isEscaped = false := by simp [Token.isEscaped, h.cons]
  have plain : unaryOp? s.token = none ∧ updateOp? s.token = none ∧ s.token.isMark "<" = false ∧
      s.token.isWord "await" = true := by
    simp [unaryOp?, updateOp?, Token.isMark, Token.isWord, h.cons]
  obtain ⟨unary, update, angle, await⟩ := plain
  unfold unaryExpr awaitExpr
  simp only [reaches_bind, reaches_startOffset, reaches_peek, reaches_read, unary, update, angle,
    await, hc, Bool.false_eq_true, ↓reduceIte, reaches_advance, escaped, reaches_within,
    unary_rules, true_and]
  exact not_reaches_unaryExpr_dot h.next

theorem not_reaches_assignmentExpr_await {Q : Expr → Reading → Prop} (hc : c.isAwait = true)
    (h : Before (.word "await" false :: .mark "." :: ls) s) :
    ¬ Reaches (assignmentExpr (rules (depth + 1))) c s Q := by
  have opens : Opens (.word "await" false :: .mark "." :: ls) :=
    .name (by decide) (by decide) (by decide) (by simp)
  have yield : s.token.isWord "yield" = false := by simp [Token.isWord, h.cons]
  unfold assignmentExpr
  simp only [reaches_bind, reaches_startOffset, reaches_get, reaches_atWord, reaches_read,
    reaches_probeNext, yield, Bool.false_and, Bool.false_eq_true, ↓reduceIte]
  intro reached
  obtain ⟨_, s', _, reached, before, rfl⟩ := reached.both (takes_arrow? opens _ h.noticed)
  have bound := before.bound
  obtain ⟨fuel, hfuel⟩ := Nat.exists_eq_add_one.mpr (Nat.zero_lt_of_lt bound)
  unfold assignmentFrom choiceExpr at reached
  simp only [reaches_bind, reaches_startOffset, reaches_bound] at reached
  unfold binaryChain binaryOperand notedPure at reached
  simp only [reaches_bind, reaches_startOffset, reaches_atMark, reaches_peek, before.cons,
    reaches_get] at reached
  exact not_reaches_unaryExpr_await hc before reached

/-- A statement that begins with a word, from which nothing can be read. -/
theorem not_reaches_statementRule_word {n : String} {Q : Stmt → Reading → Prop}
    (single : c.isSingle = false) (before : Before (.word n false :: ls) s)
    (h : ∀ Q, ¬ Reaches (wordStatement r false n) { c with isSingle := false } s Q) :
    ¬ Reaches (statementRule r) c s Q := by
  unfold statementRule
  simp only [reaches_bind, reaches_peek, reaches_get, reaches_read, reaches_within, before.cons,
    Bool.false_and, Bool.false_eq_true, ↓reduceIte, single]
  exact h _

/-- A dot shows that nothing is disposed of. -/
theorem reaches_atAwaitUsing_dot (h : Before (.word "await" false :: .mark "." :: ls) s) :
    Reaches atAwaitUsing c s fun b s' =>
      b = false ∧ Before (.word "await" false :: .mark "." :: ls) s' := by
  have using' : s.next.token.isWord "using" = false := by simp [Token.isWord, h.next.cons]
  apply reaches_probe
  simp only [reaches_bind, reaches_skip, reaches_peek, using', Bool.not_false, Bool.true_or,
    ↓reduceIte, reaches_pure]
  exact ⟨trivial, h.noticed⟩

/-- No statement begins with a member of `await`. -/
theorem not_reaches_statement_await {Q : Stmt → Reading → Prop} (hc : c.isAwait = true)
    (single : c.isSingle = false) (h : Before (.word "await" false :: .mark "." :: ls) s) :
    ¬ Reaches (statementRule (rules (depth + 2))) c s Q := by
  refine not_reaches_statementRule_word single h fun Q => ?_
  have word (w : String) : s.token.isWord w = ("await" == w) := isWord_of_word h.cons w
  unfold wordStatement variableOr variableKind?
  simp only [reaches_bind, reaches_startOffset, reaches_peek, word, String.reduceBEq,
    Bool.false_eq_true, ↓reduceIte, reaches_read, hc, Bool.and_self]
  intro reached
  obtain ⟨_, s1, _, reached, rfl, h1⟩ := reached.both (reaches_atAwaitUsing_dot h)
  have colon : s1.next.token.isMark ":" = false := by simp [Token.isMark, h1.next.cons]
  unfold expressionStatement expression undecorated at reached
  simp only [Bool.false_eq_true, ↓reduceIte, reaches_pure, reaches_bind, reaches_startOffset,
    reaches_peek, reaches_nextIs, colon, Bool.and_false, reaches_within, assignment_rules]
    at reached
  exact not_reaches_assignmentExpr_await rfl h1 reached

/-! ### Declarations -/

/-- No constant is called `await`. -/
theorem not_reaches_variableStatement_await {start : Nat} {Q : Stmt → Reading → Prop}
    (hc : c.isAwait = true) (h : Before (.word "const" false :: .word "await" false :: ls) s) :
    ¬ Reaches (variableStatement (rules (depth + 1)) start false .const) c s Q := by
  have escaped : s.token.isEscaped = false := by simp [Token.isEscaped, h.cons]
  have mark (m : String) : s.next.token.isMark m = false := by simp [Token.isMark, h.next.cons]
  unfold variableStatement variableList separated declarator
  simp only [reaches_bind, reaches_advance, escaped, reaches_startOffset, pattern_rules,
    show (VariableKind.const == VariableKind.awaitUsing) = false from rfl, Bool.false_eq_true,
    ↓reduceIte, true_and]
  unfold bindingPattern
  simp only [reaches_bind, reaches_startOffset, reaches_eatMark, mark, Bool.false_eq_true,
    ↓reduceIte]
  exact not_reaches_name_await hc h.next

theorem not_reaches_statement_constAwait {Q : Stmt → Reading → Prop} (hc : c.isAwait = true)
    (single : c.isSingle = false)
    (h : Before (.word "const" false :: .word "await" false :: ls) s) :
    ¬ Reaches (statementRule (rules (depth + 1))) c s Q := by
  refine not_reaches_statementRule_word single h fun Q => ?_
  have types : s.dialect.types = false := by rw [h.dialect]; rfl
  have word (w : String) : s.token.isWord w = ("const" == w) := isWord_of_word h.cons w
  unfold wordStatement variableOr variableKind?
  simp only [reaches_bind, reaches_dialect, types, reaches_nextIs, Bool.false_and,
    Bool.false_eq_true, ↓reduceIte, reaches_startOffset, reaches_peek, word, String.reduceBEq,
    reaches_pure, reaches_ensure, Bool.not_false, Bool.or_true, true_and]
  exact not_reaches_variableStatement_await hc h

theorem not_reaches_statement_exportConstAwait {Q : Stmt → Reading → Prop}
    (hc : c.isAwait = true) (single : c.isSingle = false)
    (h : Before (.word "export" false :: .word "const" false :: .word "await" false :: ls) s) :
    ¬ Reaches (statementRule (rules (depth + 1))) c s Q := by
  refine not_reaches_statementRule_word single h fun Q => ?_
  have escaped : s.token.isEscaped = false := by simp [Token.isEscaped, h.cons]
  have word (w : String) : s.next.token.isWord w = ("const" == w) := isWord_of_word h.next.cons w
  have mark (m : String) : s.next.token.isMark m = false := by simp [Token.isMark, h.next.cons]
  have types : s.next.dialect.types = false := by rw [h.next.dialect]; rfl
  have declares : s.next.token.isWordOf ["var", "let", "const"] = true := by
    simp [Token.isWordOf, h.next.cons]
  unfold wordStatement exportStatement typedExport? declaration declarationModifiers
    declarationFrom atFunction variableKind?
  simp only [reaches_bind, reaches_startOffset, reaches_expectWord, isWord_of_word h.cons, escaped,
    beq_self_eq_true, reaches_eatWord, word, String.reduceBEq, Bool.false_eq_true, ↓reduceIte,
    reaches_atMark, mark, List.isEmpty_nil, Bool.not_true, reaches_dialect, types,
    Bool.not_false, reaches_pure, reaches_within, reaches_peek, reaches_atWord, declares,
    allowOnly, List.all_nil, List.contains_nil, Bool.or_false, reaches_ensure, true_and]
  exact not_reaches_variableStatement_await hc h.next

/-- No class is called `await` or `implements`. -/
theorem not_reaches_statement_class {n : String} {Q : Stmt → Reading → Prop}
    (hn : n = "await" ∨ n = "implements") (hc : c.isAwait = true) (single : c.isSingle = false)
    (h : Before (.word "class" false :: .word n false :: .mark "\x7b" :: ls) s) :
    ¬ Reaches (statementRule r) c s Q := by
  refine not_reaches_statementRule_word single h fun Q => ?_
  have escaped : s.token.isEscaped = false := by simp [Token.isEscaped, h.cons]
  have nextEscaped : s.next.token.isEscaped = false := by simp [Token.isEscaped, h.next.cons]
  have word (w : String) : s.next.token.isWord w = (n == w) := isWord_of_word h.next.cons w
  have types : s.next.dialect.types = false := by rw [h.next.dialect]; rfl
  unfold wordStatement classStatement classDeclaration allowOnly classFrom className? typeParameters
  simp only [reaches_bind, reaches_startOffset, reaches_ensure, Bool.not_false, List.all_nil,
    List.contains_nil, reaches_expectWord, isWord_of_word h.cons, beq_self_eq_true, escaped,
    reaches_peek, word, reaches_ite, true_and]
  rcases hn with rfl | rfl
  · have nameWord : isNameWord s.next.token = true := by
      simp [isNameWord, h.next.cons, reservedWords]
    simp only [nameWord, String.reduceBEq, Bool.not_false, Bool.and_self, ↓reduceIte, reaches_map]
    exact not_reaches_name_await hc h.next
  · simp only [beq_self_eq_true, Bool.not_true, Bool.and_false, Bool.false_eq_true, ↓reduceIte,
      reaches_pure, reaches_dialect, types, Bool.not_false, Bool.true_or, reaches_bind,
      reaches_atMark, reaches_eatWord, word, String.reduceBEq, nextEscaped, interfaceList,
      separated, reaches_startOffset, dottedName, anyWord, reaches_peek, h.next.next.cons,
      reaches_failure, true_and, not_false_eq_true]

end Parser

end ComponentLowering.Syntax
