/-
# Reading made-up blocks

`StatementForms` is a small grammar of the statements that lowering makes up inside of classes:
values, assignments, results and branches.  Whatever it derives, the rules for statements read as
the tree that it says, one statement after the other up to a closing brace.
-/
import ComponentLowering.Proofs.Syntax.Snippets

namespace ComponentLowering.Syntax

namespace Parser

variable {α β ι : Type} {c : Surroundings} {s : Reading} {r : Rules} {l : Lexeme}
  {ls mid rest tail : List Lexeme} {post : α → Prop}

/-! ### Repetitions -/

/-- Whether a step of a repetition takes each of some items and answers nothing behind them. -/
structure TakesSteps (step : Parser (Option α)) (c : Surroundings) (toks : ι → List Lexeme)
    (good : ι → α → Prop) (items : List ι) (rest : List Lexeme) : Prop where
  each : ∀ x ∈ items, ∀ tail, Takes step c (toks x ++ tail) tail fun o => ∃ a, o = some a ∧ good x a
  stop : Takes step c rest rest (· = none)

theorem TakesSteps.repeatFrom {step : Parser (Option α)} {toks : ι → List Lexeme}
    {good : ι → α → Prop} {items : List ι} (h : TakesSteps step c toks good items rest)
    {fuel : Nat} (hfuel : items.length < fuel) (acc : List α) :
    Takes (Parser.repeatFrom step fuel acc) c (items.flatMap toks ++ rest) rest
      fun as => ∃ more, as = acc.reverse ++ more ∧ List.Forall₂ good items more := by
  induction items generalizing fuel acc with
  | nil =>
      obtain ⟨fuel, rfl⟩ := Nat.exists_eq_add_one.mpr hfuel
      intro s before
      unfold Parser.repeatFrom
      rw [reaches_bind]
      refine (h.stop s before).imp ?_
      rintro _ s' ⟨behind, rfl⟩
      exact (reaches_pure _).mpr ⟨behind, [], by simp, .nil⟩
  | cons x items ih =>
      obtain ⟨fuel, rfl⟩ := Nat.exists_eq_add_one.mpr (Nat.zero_lt_of_lt hfuel)
      have later : TakesSteps step c toks good items rest :=
        ⟨fun y hy => h.each y (.tail x hy), h.stop⟩
      intro s before
      rw [List.flatMap_cons, List.append_assoc] at before
      unfold Parser.repeatFrom
      rw [reaches_bind]
      refine (h.each x (.head _) _ s before).imp ?_
      rintro _ s1 ⟨h1, a, rfl, ha⟩
      refine (ih later (by simpa using hfuel) (a :: acc) s1 h1).imp ?_
      rintro as s2 ⟨h2, more, rfl, all⟩
      exact ⟨h2, a :: more, by simp, .cons ha all⟩

theorem length_le_flatMap {toks : ι → List Lexeme} {items : List ι}
    (nonempty : ∀ x ∈ items, toks x ≠ []) : items.length ≤ (items.flatMap toks).length := by
  induction items with
  | nil => simp
  | cons x items ih =>
      have here := List.length_pos_iff.mpr (nonempty x (.head _))
      have later := ih fun y hy => nonempty y (.tail x hy)
      simp only [List.length_cons, List.flatMap_cons, List.length_append]
      omega

/-- Items up to what ends the repetition. -/
theorem TakesSteps.collect {step : Parser (Option α)} {toks : ι → List Lexeme}
    {good : ι → α → Prop} {items : List ι} (h : TakesSteps step c toks good items rest)
    (nonempty : ∀ x ∈ items, toks x ≠ []) :
    Takes (Parser.collect step) c (items.flatMap toks ++ rest) rest (List.Forall₂ good items) := by
  intro s before
  have bound := before.bound
  have short := length_le_flatMap nonempty
  rw [List.length_append] at bound
  unfold Parser.collect
  rw [reaches_bind, reaches_bound]
  refine (h.repeatFrom (by omega) [] s before).imp ?_
  rintro as s' ⟨behind, more, rfl, all⟩
  exact ⟨behind, by simpa using all⟩

/-- A repetition that ends at once. -/
theorem takes_collect_none {step : Parser (Option α)} (stop : Takes step c ls ls (· = none)) :
    Takes (Parser.collect step) c ls ls (· = []) := by
  have steps : TakesSteps step c (fun _ : Empty => []) (fun _ _ => True) [] ls :=
    ⟨by simp, stop⟩
  refine (steps.collect (by simp)).imp fun _ all => ?_
  cases all
  rfl

/-! ### Statements in braces -/

/-- Whether some lexemes, in front of any others, are taken as a statement that begins with a
word. -/
structure TakesStatement (r : Rules) (c : Surroundings) (a : List Lexeme × Stmt) : Prop where
  word : ∃ n more, a.1 = .word n false :: more
  takes : ∀ tail, Takes r.statement c (a.1 ++ tail) tail (·.detach = a.2)

theorem TakesStatement.ne_nil {a : List Lexeme × Stmt} (h : TakesStatement r c a) : a.1 ≠ [] := by
  obtain ⟨n, more, eq⟩ := h.word
  simp [eq]

theorem detachStmts_eq {items : List (List Lexeme × Stmt)} {bs : List Stmt}
    (h : List.Forall₂ (fun a b => b.detach = a.2) items bs) :
    detachStmts bs = items.map (·.2) := by
  induction h with
  | nil => rfl
  | cons here _ ih => rw [detachStmts, here, ih, List.map_cons]

/-- The statements of a block. -/
theorem takes_statements {items : List (List Lexeme × Stmt)}
    (each : ∀ a ∈ items, TakesStatement r c a) :
    Takes (statements r) c (items.flatMap (·.1) ++ .mark "\x7d" :: rest) (.mark "\x7d" :: rest)
      (detachStmts · = items.map (·.2)) := by
  refine (TakesSteps.collect ⟨?_, ?_⟩
    fun a ha => (each a ha).ne_nil).imp fun _ => detachStmts_eq
  · intro a ha tail s h
    obtain ⟨n, more, eq⟩ := (each a ha).word
    have lexeme : s.token.lexeme = .word n false := by rw [h.lexeme, eq]; rfl
    have close : s.token.isMark "\x7d" = false := by simp [Token.isMark, lexeme]
    have more : (s.token.lexeme != .endOfText) = true := by simp [lexeme]
    simp only [reaches_bind, reaches_atMark, close, Bool.false_eq_true, ↓reduceIte, reaches_peek,
      reaches_ensure, more, reaches_pure, true_and]
    refine ((each a ha).takes tail s h).imp ?_
    rintro b s' ⟨behind, hb⟩
    exact ⟨behind, b, rfl, hb⟩
  · intro s h
    simp only [reaches_bind, reaches_atMark, isMark_of_eq h.cons, ↓reduceIte, reaches_pure]
    exact ⟨h, trivial⟩

theorem splitDirectives_undirected {items : List (List Lexeme × Stmt)}
    {bs : List (Option (List Char) × Stmt)}
    (h : List.Forall₂ (fun a b => b.1 = none ∧ b.2.detach = a.2) items bs) :
    (splitDirectives bs).1 = [] ∧ detachStmts (splitDirectives bs).2 = items.map (·.2) := by
  have plain : bs = (bs.map (·.2)).map (none, ·) ∧
      List.Forall₂ (fun (a : List Lexeme × Stmt) (b : Stmt) => b.detach = a.2) items
        (bs.map (·.2)) := by
    induction h with
    | nil => exact ⟨rfl, .nil⟩
    | @cons a b items bs here _ ih =>
        obtain ⟨raw, t⟩ := b
        obtain ⟨rfl, tree⟩ := here
        exact ⟨congrArg ((none, t) :: ·) ih.1, .cons tree ih.2⟩
  rw [plain.1, splitDirectives_map_none]
  exact ⟨rfl, detachStmts_eq plain.2⟩

/-- The statements of a body, none of which is a directive. -/
theorem takes_bodyUpTo {items : List (List Lexeme × Stmt)}
    (each : ∀ a ∈ items, TakesStatement r c a) :
    Takes (bodyUpTo r fun t => t.isMark "\x7d") c
      (items.flatMap (·.1) ++ .mark "\x7d" :: rest) (.mark "\x7d" :: rest)
      (fun b => b.1 = [] ∧ detachStmts b.2 = items.map (·.2)) := by
  have steps : TakesSteps (bodyItem r fun t => t.isMark "\x7d") c (·.1)
      (fun a b => b.1 = none ∧ b.2.detach = a.2) items (.mark "\x7d" :: rest) := by
    constructor
    · intro a ha tail s h
      obtain ⟨n, more, eq⟩ := (each a ha).word
      have lexeme : s.token.lexeme = .word n false := by rw [h.lexeme, eq]; rfl
      have close : s.token.isMark "\x7d" = false := by simp [Token.isMark, lexeme]
      have goesOn : (Lexeme.word n false != .endOfText) = true := by simp
      unfold bodyItem
      simp only [reaches_bind, close, Bool.false_eq_true, ↓reduceIte, reaches_peek,
        reaches_ensure, goesOn, lexeme, reaches_pure, true_and]
      refine ((each a ha).takes tail s h).imp ?_
      rintro b s' ⟨behind, hb⟩
      exact ⟨behind, (none, b), rfl, rfl, hb⟩
    · intro s h
      unfold bodyItem
      simp only [reaches_bind, reaches_peek, isMark_of_eq h.cons, ↓reduceIte, reaches_pure]
      exact ⟨h, trivial⟩
  rw [bodyUpTo_eq]
  intro s h
  rw [reaches_map]
  refine (steps.collect (fun a ha => (each a ha).ne_nil) s h).imp ?_
  rintro bs s' ⟨behind, all⟩
  exact ⟨behind, splitDirectives_undirected all⟩

/-- Statements in braces, as lexemes. -/
def blockLexemes (items : List (List Lexeme × Stmt)) : List Lexeme :=
  .mark "\x7b" :: (items.flatMap (·.1) ++ [.mark "\x7d"])

/-- A block as it is made up. -/
def madeBlock (items : List (List Lexeme × Stmt)) : Stmt := .block .detached (items.map (·.2))

theorem takes_blockStatement {items : List (List Lexeme × Stmt)}
    (each : ∀ a ∈ items, TakesStatement r c a) :
    Takes (blockStatement r) c (blockLexemes items ++ tail) tail (·.detach = madeBlock items) := by
  intro s h
  rw [blockLexemes, List.cons_append, List.append_assoc, List.singleton_append] at h
  unfold blockStatement
  simp only [reaches_bind, reaches_startOffset, reaches_expectMark, isMark_of_eq h.cons, true_and]
  refine (takes_statements each s.next h.next).imp ?_
  rintro body s' ⟨behind, hbody⟩
  simp only [isMark_of_eq behind.cons, reaches_spanFrom, reaches_pure, true_and]
  exact ⟨behind.next, by simp [Stmt.detach, madeBlock, hbody]⟩

/-- A block may be the whole body of another statement; its own statements are none. -/
theorem takes_singleBlock {depth : Nat} {items : List (List Lexeme × Stmt)}
    (each : ∀ a ∈ items, TakesStatement (rules depth) { c with isSingle := false } a) :
    Takes (singleStatement (rules (depth + 1))) c (blockLexemes items ++ tail) tail
      (·.detach = madeBlock items) := by
  intro s h
  have lexeme : s.token.lexeme = .mark "\x7b" := h.cons
  unfold singleStatement
  rw [reaches_within, statement_rules]
  unfold statementRule
  simp only [reaches_bind, reaches_peek, reaches_get, reaches_read, reaches_within, lexeme,
    h.functionNote, Bool.false_eq_true, ↓reduceIte, reaches_pure]
  exact takes_blockStatement each s h

/-! ### Branches and results -/

theorem takes_branchStatement {depth : Nat} {test : List Lexeme} {e : Expr}
    {yes no : List (List Lexeme × Stmt)} (forms : Forms .sum test e) (hdepth : test.length ≤ depth)
    (hc : Surroundings.IsOrdinary c)
    (eachYes : ∀ a ∈ yes, TakesStatement (rules depth) { c with isSingle := false } a)
    (eachNo : ∀ a ∈ no, TakesStatement (rules depth) { c with isSingle := false } a) :
    Takes (branchStatement (rules (depth + 1))) c
      (.word "if" false :: .mark "(" :: (test ++ .mark ")" ::
        (blockLexemes yes ++ .word "else" false :: (blockLexemes no ++ tail)))) tail
      (·.detach = .branch .detached e (madeBlock yes) (some (madeBlock no))) := by
  intro s h
  have escaped : s.token.isEscaped = false := by simp [Token.isEscaped, h.cons]
  have paren : BeginsWith [")"] (.mark ")" ::
      (blockLexemes yes ++ .word "else" false :: (blockLexemes no ++ tail))) :=
    ⟨")", by decide, rfl⟩
  unfold branchStatement headExpression
  simp only [reaches_bind, reaches_startOffset, reaches_advance, escaped, reaches_expectMark,
    isMark_of_eq h.next.cons, true_and]
  refine (takes_expression (by decide) paren hc
    (fun c hc => forms.takes hdepth hc (paren.imp (by decide))) s.next.next h.next.next).imp ?_
  rintro test' s1 ⟨h1, htest⟩
  simp only [isMark_of_eq h1.cons, reaches_pure, true_and]
  refine (takes_singleBlock eachYes s1.next h1.next).imp ?_
  rintro yes' s2 ⟨h2, hyes⟩
  refine (takes_eatWord s2 h2).imp ?_
  rintro _ s3 ⟨h3, rfl⟩
  simp only [↓reduceIte, reaches_bind, reaches_map]
  refine (takes_singleBlock eachNo s3 h3).imp ?_
  rintro no' s4 ⟨h4, hno⟩
  simp only [reaches_spanFrom, reaches_pure]
  exact ⟨h4, by simp [Stmt.detach, detachStmt?, htest, hyes, hno]⟩

theorem takes_returnStatement {depth : Nat} {n : String} {more : List Lexeme} {e : Expr}
    (sameLine : n ∉ lineWords) (forms : Forms .sum (.word n false :: more) e)
    (hdepth : more.length < depth) (hc : Surroundings.IsOrdinary c)
    (function : c.isFunction = true) :
    Takes (returnStatement (rules (depth + 1))) c
      (.word "return" false :: .word n false :: (more ++ .mark ";" :: tail)) tail
      (·.detach = .returnValue .detached (some e)) := by
  intro s h
  have escaped : s.token.isEscaped = false := by simp [Token.isEscaped, h.cons]
  have ends : BeginsWith [";"] (.mark ";" :: tail) := ⟨";", by decide, rfl⟩
  have first : s.next.token.lexeme = .word n false := h.next.cons
  have mark : s.next.token.isMarkOf [";", "\x7d"] = false := by simp [Token.isMarkOf, first]
  have goesOn : (s.next.token.lexeme == .endOfText) = false := by simp [first]
  have noBreak : s.next.token.afterNewline = false := by
    rw [Bool.eq_false_iff]
    intro newline
    obtain ⟨word, mem, head⟩ := h.next.line newline
    simp only [List.head?_cons, Option.some.injEq, Lexeme.word.injEq, and_true] at head
    exact sameLine (head ▸ mem)
  unfold returnStatement bracketed
  simp only [reaches_bind, reaches_startOffset, reaches_read, reaches_ensure, reaches_advance,
    escaped, reaches_peek, mark, goesOn, noBreak, Bool.or_self, Bool.false_eq_true, ↓reduceIte,
    reaches_map, reaches_within, true_and]
  refine ⟨function, (takes_expression (by decide) ends (bracketed_isOrdinary hc)
    (fun c hc => forms.takes hdepth hc (ends.imp (by decide))) s.next h.next).imp ?_⟩
  rintro value' s1 ⟨h1, hvalue⟩
  refine (takes_semicolon s1 h1).imp ?_
  rintro _ s2 ⟨h2, _⟩
  simp only [reaches_spanFrom, reaches_pure]
  exact ⟨h2, by simp [Stmt.detach, detachExpr?, hvalue]⟩

/-! ### Statements -/

/-- Whether a word begins no statement of its own, so that an expression is read where it stands. -/
def BeginsValue (n : String) : Prop :=
  ∀ r isSingle, wordStatement r isSingle n = expressionStatement r

theorem takes_statementRule_value {n : String} {more : List Lexeme} {e : Expr}
    (begins : BeginsValue n) (opens : Opens (.word n false :: more)) (single : c.isSingle = false)
    (hc : Surroundings.IsOrdinary c)
    (value : ∀ c, Surroundings.IsOrdinary c →
      Takes r.assignment c (.word n false :: more) (.mark ";" :: rest) (·.detach = e)) :
    Takes (statementRule r) c (.word n false :: more) rest
      (·.detach = .expression .detached e) := by
  apply takes_statementRule_word single
  rw [begins]
  exact takes_expressionStatement opens (single_isOrdinary hc) value

/-- An assignment to a member. -/
theorem takes_assignment {depth : Nat} {ls ks : List Lexeme} {target e : Expr}
    (access : IsMemberAccess target) (place : Forms .operand ls target) (value : Forms .sum ks e)
    (hplace : ls.length ≤ depth + 1) (hvalue : ks.length ≤ depth)
    (hc : Surroundings.IsOrdinary c) :
    Takes (rules (depth + 2)).assignment c (ls ++ .mark "=" :: (ks ++ .mark ";" :: tail))
      (.mark ";" :: tail) (·.detach = madeAssignment target e) := by
  have opens : Opens (ls ++ .mark "=" :: (ks ++ .mark ";" :: tail)) :=
    place.opens _ ⟨"=", by decide, rfl⟩ (by simp)
  rw [assignment_rules]
  exact takes_assignmentExpr opens hc fun start =>
    takes_assignmentFrom_member access place hplace hc
      (value.takes hvalue hc ⟨";", by decide, rfl⟩)

/-- Whether some lexemes form a statement inside of a function. -/
inductive StatementForms : List Lexeme → Stmt → Prop where
  | value {n : String} {more : List Lexeme} {e : Expr} (begins : BeginsValue n)
      (forms : Forms .sum (.word n false :: more) e) :
      StatementForms (.word n false :: (more ++ [.mark ";"])) (.expression .detached e)
  | assign {n : String} {more ks : List Lexeme} {target e : Expr} (begins : BeginsValue n)
      (access : IsMemberAccess target) (place : Forms .operand (.word n false :: more) target)
      (value : Forms .sum ks e) :
      StatementForms (.word n false :: (more ++ .mark "=" :: (ks ++ [.mark ";"])))
        (.expression .detached (madeAssignment target e))
  | result {n : String} {more : List Lexeme} {e : Expr} (sameLine : n ∉ lineWords)
      (forms : Forms .sum (.word n false :: more) e) :
      StatementForms (.word "return" false :: .word n false :: (more ++ [.mark ";"]))
        (.returnValue .detached (some e))
  | branch {test : List Lexeme} {e : Expr} (forms : Forms .sum test e)
      (yes no : List (List Lexeme × Stmt)) (eachYes : ∀ a ∈ yes, StatementForms a.1 a.2)
      (eachNo : ∀ a ∈ no, StatementForms a.1 a.2) :
      StatementForms
        (.word "if" false :: .mark "(" :: (test ++ .mark ")" ::
          (blockLexemes yes ++ .word "else" false :: blockLexemes no)))
        (.branch .detached e (madeBlock yes) (some (madeBlock no)))

theorem StatementForms.word {tree : Stmt} (h : StatementForms ls tree) :
    ∃ n more, ls = .word n false :: more := by
  cases h <;> exact ⟨_, _, rfl⟩

theorem length_le_blockLexemes {items : List (List Lexeme × Stmt)} {a : List Lexeme × Stmt}
    (mem : a ∈ items) : a.1.length + 2 ≤ (blockLexemes items).length := by
  obtain ⟨before, behind, rfl⟩ := List.append_of_mem mem
  simp only [blockLexemes, List.flatMap_append, List.flatMap_cons, List.length_append,
    List.length_cons, List.length_nil]
  omega

/-- Whatever the grammar derives is read as it says, by rules that nest deeply enough. -/
theorem StatementForms.takes {tree : Stmt} (h : StatementForms ls tree) :
    ∀ depth, ls.length ≤ depth → ∀ c, Surroundings.IsOrdinary c → c.isSingle = false →
      c.isFunction = true → ∀ tail,
      Takes (statementRule (rules (depth + 1))) c (ls ++ tail) tail (·.detach = tree) := by
  induction h with
  | @value n more e begins forms =>
      intro depth hdepth c hc single _ tail
      have opens : Opens (.word n false :: (more ++ .mark ";" :: tail)) :=
        forms.opens _ ⟨";", by decide, rfl⟩ (by simp)
      rw [List.cons_append, List.append_assoc, List.singleton_append]
      refine takes_statementRule_value begins opens single hc fun c hc => ?_
      exact forms.takes (by simp at hdepth ⊢; omega) hc ⟨";", by decide, rfl⟩
  | @assign n more ks target e begins access place value =>
      intro depth hdepth c hc single _ tail
      simp only [List.length_cons, List.length_append] at hdepth
      obtain ⟨depth, rfl⟩ := Nat.exists_eq_add_one.mpr (show 0 < depth by omega)
      have opens : Opens (.word n false :: (more ++ .mark "=" :: (ks ++ .mark ";" :: tail))) :=
        place.opens _ ⟨"=", by decide, rfl⟩ (by simp)
      rw [List.cons_append, List.append_assoc, List.cons_append, List.append_assoc,
        List.singleton_append]
      refine takes_statementRule_value begins opens single hc fun c hc => ?_
      exact takes_assignment access place value (by simp; omega) (by omega) hc
  | @result n more e sameLine forms =>
      intro depth hdepth c hc single function tail
      simp only [List.length_cons, List.length_append] at hdepth
      rw [List.cons_append, List.cons_append, List.append_assoc, List.singleton_append]
      refine takes_statementRule_word single ?_
      exact takes_returnStatement sameLine forms (by omega) (single_isOrdinary hc) function
  | @branch test e forms yes no eachYes eachNo ihYes ihNo =>
      intro depth hdepth c hc single function tail
      simp only [List.length_cons, List.length_append] at hdepth
      obtain ⟨depth, rfl⟩ := Nat.exists_eq_add_one.mpr (show 0 < depth by omega)
      obtain ⟨depth, rfl⟩ := Nat.exists_eq_add_one.mpr (show 0 < depth by omega)
      have inner {items : List (List Lexeme × Stmt)}
          (each : ∀ a ∈ items, StatementForms a.1 a.2)
          (ih : ∀ a ∈ items, ∀ depth, a.1.length ≤ depth → ∀ c, Surroundings.IsOrdinary c →
            c.isSingle = false → c.isFunction = true → ∀ tail,
            Takes (statementRule (rules (depth + 1))) c (a.1 ++ tail) tail (·.detach = a.2))
          (short : (blockLexemes items).length ≤ depth + 2) :
          ∀ a ∈ items, TakesStatement (rules (depth + 2)) { c with isSingle := false } a := by
        intro a ha
        have length := length_le_blockLexemes ha
        refine ⟨(each a ha).word, fun tail => ?_⟩
        rw [statement_rules]
        exact ih a ha depth (by omega) _ (single_isOrdinary hc) rfl function tail
      rw [List.cons_append, List.cons_append, List.append_assoc, List.cons_append,
        List.append_assoc, List.cons_append]
      refine takes_statementRule_word single ?_
      exact takes_branchStatement forms (by omega) (single_isOrdinary hc)
        (inner eachYes ihYes (by omega)) (inner eachNo ihNo (by omega))

end Parser

end ComponentLowering.Syntax
