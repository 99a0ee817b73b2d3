/-
# Reading class frames

The statements that give a lowered class its form hold a class without members.
-/
import ComponentLowering.Proofs.Syntax.MadeStatements

namespace ComponentLowering.Syntax

namespace Parser

variable {c : Surroundings} {s : Reading} {r : Rules} {ls mid rest : List Lexeme}

/-! ### Class declarations -/

/-- A class declaration, given how its members are read. -/
theorem takes_statement_class_body {n : String} {body : List Lexeme} {members : List Member}
    (named : isBindingName n = true) (names : NamesClass (some n)) (single : c.isSingle = false)
    (hc : Surroundings.IsOrdinary c)
    (inner : ∀ c, Surroundings.IsOrdinary c →
      Takes (classBody r) c (.mark "\x7b" :: body) ls (detachMembers · = members)) :
    Takes (statementRule r) c (.word "class" false :: .word n false :: .mark "\x7b" :: body) ls
      (·.detach = .classDecl { madeClass (some n) named with members }) := by
  have named' : (some n).all isBindingName = true := named
  have hc' := single_isOrdinary hc
  apply takes_statementRule_word single
  intro s h
  simp only [wordStatement, classStatement, classDeclaration, allowOnly, List.all_nil,
    reaches_bind, reaches_startOffset, reaches_ensure, Bool.not_false, true_and,
    List.contains_nil]
  refine (takes_classFrom_body named' names hc'.isYield (inner _ hc') s h).imp ?_
  rintro a s' ⟨behind, ha⟩
  simp only [reaches_pure]
  exact ⟨behind, by simp [Stmt.detach, ha]⟩

/-- A class declaration without members. -/
theorem takes_statement_class {n : String} (named : isBindingName n = true)
    (names : NamesClass (some n)) (single : c.isSingle = false)
    (hc : Surroundings.IsOrdinary c) :
    Takes (statementRule r) c (classLexemes (some n) ++ ls) ls
      (·.detach = .classDecl (madeClass (some n) named)) :=
  takes_statement_class_body named names single hc fun _ _ =>
    takes_classBody.imp fun _ none => by rw [none, detachMembers]

/-! ### Exported constants -/

/-- The declaration of a constant behind the word `export`. -/
theorem takes_declaration_const {target : Pattern} {value : Expr} (hc : Surroundings.IsOrdinary c)
    (pattern : ∀ c, Surroundings.IsOrdinary c →
      Takes r.pattern c ls (.mark "=" :: mid) (·.detach = target))
    (assignment : ∀ c, Surroundings.IsOrdinary c →
      Takes r.assignment c mid (.mark ";" :: rest) (·.detach = value)) :
    Takes (declaration r) c (.word "const" false :: ls) rest
      (·.detach = madeConstant target value) := by
  intro s h
  have types : s.dialect.types = false := by rw [h.dialect]; rfl
  have word (w : String) : s.token.isWord w = ("const" == w) := by simp [Token.isWord, h.cons]
  have declares : s.token.isWordOf ["var", "let", "const"] = true := by
    simp [Token.isWordOf, h.cons]
  unfold declaration declarationModifiers declarationFrom atFunction variableKind?
  simp only [reaches_bind, reaches_startOffset, reaches_dialect, types, Bool.not_false, ↓reduceIte,
    reaches_pure, reaches_within, reaches_peek, word, String.reduceBEq, Bool.false_eq_true,
    reaches_atWord, declares, allowOnly, List.all_nil, List.contains_nil, Bool.or_false, reaches_ensure, true_and]
  exact takes_variableStatement (pattern _ ⟨hc.isYield, hc.isDecorator⟩)
    (assignment _ ⟨hc.isYield, hc.isDecorator⟩) s h

theorem takes_statement_exportConst {target : Pattern} {value : Expr}
    (single : c.isSingle = false) (hc : Surroundings.IsOrdinary c)
    (pattern : ∀ c, Surroundings.IsOrdinary c →
      Takes r.pattern c ls (.mark "=" :: mid) (·.detach = target))
    (assignment : ∀ c, Surroundings.IsOrdinary c →
      Takes r.assignment c mid (.mark ";" :: rest) (·.detach = value)) :
    Takes (statementRule r) c (.word "export" false :: .word "const" false :: ls) rest
      (·.detach = .exportDecl .detached (madeConstant target value)) := by
  apply takes_statementRule_word single
  intro s h
  have escaped : s.token.isEscaped = false := by simp [Token.isEscaped, h.cons]
  have word (w : String) : s.next.token.isWord w = ("const" == w) := by
    simp [Token.isWord, h.next.cons]
  have mark (m : String) : s.next.token.isMark m = false := by simp [Token.isMark, h.next.cons]
  have types : s.next.dialect.types = false := by rw [h.next.dialect]; rfl
  unfold wordStatement exportStatement typedExport?
  simp only [reaches_bind, reaches_startOffset, reaches_expectWord, isWord_of_word h.cons, escaped,
    beq_self_eq_true, reaches_eatWord, word, String.reduceBEq, Bool.false_eq_true, ↓reduceIte,
    reaches_atMark, mark, List.isEmpty_nil, Bool.not_true, Bool.or_self, reaches_dialect, types,
    Bool.not_false, reaches_pure, true_and]
  refine (takes_declaration_const (single_isOrdinary hc) pattern assignment s.next h.next).imp ?_
  rintro a s' ⟨behind, ha⟩
  simp only [reaches_spanFrom]
  exact ⟨behind, by simp [Stmt.detach, ha]⟩

end Parser

end ComponentLowering.Syntax
