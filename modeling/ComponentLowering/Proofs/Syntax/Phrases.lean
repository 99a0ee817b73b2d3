/-
# Reading expressions

`Forms` is a small grammar of the expressions that snippets are made of.  Whatever it derives, the
rules for expressions read as the tree that it says.
-/
import ComponentLowering.Proofs.Syntax.Operands
import ComponentLowering.Syntax.Grammar.Statements

namespace ComponentLowering.Syntax

namespace Parser

variable {α β : Type} {c : Surroundings} {s : Reading} {r : Rules} {l m : Lexeme}
  {ls mid rest tail : List Lexeme} {post : α → Prop}

/-! ### Beginnings -/

/-- Beginnings of expressions: no prefix operator, no arrow function and no label. -/
inductive Opens : List Lexeme → Prop where
  | name {n mark : String} {more : List Lexeme}
      (notReserved : reservedWords.contains n = false) (notArrow : mark ≠ "=>") (notLabel : mark ≠ ":")
      (async : n = "async" → mark ≠ "(" ∧ mark ≠ "<") :
      Opens (.word n false :: .mark mark :: more)
  | keyword {n : String} {m : Lexeme} {more : List Lexeme} (word : n ∈ ["this", "class", "true"]) :
      Opens (.word n false :: m :: more)
  | string {v : Text.StringValue} {m : Lexeme} {more : List Lexeme} :
      Opens (.string v :: m :: more)
  | brace {m : Lexeme} {more : List Lexeme} : Opens (.mark "\x7b" :: m :: more)

/-- The words that begin expressions although no name may be one. -/
theorem mem_openers {n : String} (h : n ∈ ["this", "class", "true"]) :
    n = "this" ∨ n = "class" ∨ n = "true" := by simpa using h

theorem Opens.two (h : Opens ls) : ∃ l m more, ls = l :: m :: more := by
  cases h <;> exact ⟨_, _, _, rfl⟩

/-- Looking for an arrow behind `async` moves nothing. -/
theorem reaches_atAsyncBareArrow (h : Before (l :: m :: ls) s) :
    Reaches atAsyncBareArrow c s fun b s' => Before (l :: m :: ls) s' ∧
      ((∃ mark, m = .mark mark) → b = false) := by
  apply reaches_probe
  simp only [reaches_bind, reaches_skip, reaches_peek, reaches_ite, reaches_pure, reaches_atMark]
  have here : Before (l :: m :: ls) { s with newest := s.next.newest } := h.noticed
  have there : Before (l :: m :: ls) { s with newest := s.next.next.newest } :=
    { h with callNote := h.next.next.callNote, functionNote := h.next.next.functionNote }
  split
  · exact ⟨here, fun _ => trivial⟩
  · refine ⟨there, ?_⟩
    rintro ⟨mark, rfl⟩
    simp [isNameWord, h.next.cons]

theorem isWord_of_word {t : Token} {n : String} (h : t.lexeme = .word n false) (word : String) :
    t.isWord word = (n == word) := by
  simp only [Token.isWord, h]

/-- No parenthesis stands where the parameters of an arrow function would. -/
theorem reaches_arrowOutlook (opens : Opens ls) (h : Before ls s) :
    Reaches arrowOutlook c s fun outlook s' => Before ls s' ∧ outlook = .impossible := by
  apply reaches_probe
  simp only [reaches_bind, reaches_atWord, reaches_ite, reaches_skip, reaches_peek, reaches_pure,
    reaches_dialect]
  cases opens with
  | @name n mark more plain notArrow notLabel async =>
      have paren : (Lexeme.word n false : Lexeme) ≠ .mark "(" := by simp
      have angle : (Lexeme.word n false : Lexeme) ≠ .mark "<" := by simp
      by_cases isAsync : n = "async"
      · obtain ⟨notParen, notAngle⟩ := async isAsync
        have nextParen : s.next.token.isMark "(" = false :=
          isMark_of_ne (by rw [h.next.cons]; simpa using notParen)
        have nextAngle : s.next.token.isMark "<" = false :=
          isMark_of_ne (by rw [h.next.cons]; simpa using notAngle)
        simp only [isWord_of_word h.cons, isAsync, beq_self_eq_true, ↓reduceIte, nextParen,
          nextAngle, Bool.false_eq_true, Bool.false_and]
        split <;> exact ⟨isAsync ▸ h.noticed, trivial⟩
      · have word : (n == "async") = false := by simpa using isAsync
        simp only [isWord_of_word h.cons, word, Bool.false_eq_true, ↓reduceIte,
          isMark_of_ne (h.cons.trans_ne paren), isMark_of_ne (h.cons.trans_ne angle),
          Bool.false_and]
        exact ⟨h, trivial⟩
  | keyword word =>
      rcases mem_openers word with rfl | rfl | rfl <;> simpa [Token.isWord, Token.isMark, h.cons] using h
  | string => simpa [Token.isWord, Token.isMark, h.cons] using h
  | brace => simpa [Token.isWord, Token.isMark, h.cons] using h

/-- No arrow function begins here. -/
theorem takes_arrow? (opens : Opens ls) : Takes (arrow? r) c ls ls (· = none) := by
  intro s h
  obtain ⟨l, m, more, rfl⟩ := opens.two
  unfold arrow?
  simp only [reaches_bind, reaches_peek]
  refine (reaches_arrowOutlook opens h).imp ?_
  rintro outlook s' ⟨before, rfl⟩
  simp only [reaches_bind]
  refine (reaches_atAsyncBareArrow before).imp ?_
  rintro b s'' ⟨before', notBare⟩
  have bare : (s.token.isWord "async" && b) = false := by
    cases opens with
    | name => simp [notBare ⟨_, rfl⟩]
    | keyword word => rcases mem_openers word with rfl | rfl | rfl <;> simp [Token.isWord, h.cons]
    | string => simp [Token.isWord, h.cons]
    | brace => simp [Token.isWord, h.cons]
  have arrow : (isNameWord s.token && (s''.next.token.isMark "=>" &&
      !s''.next.token.afterNewline)) = false := by
    cases opens with
    | name plain notArrow notLabel async =>
        simp [isMark_of_ne (before'.next.cons.trans_ne (by simpa using notArrow))]
    | keyword word => rcases mem_openers word with rfl | rfl | rfl <;> simp [isNameWord, h.cons, reservedWords]
    | string => simp [isNameWord, h.cons]
    | brace => simp [isNameWord, h.cons]
  simp only [bare, Bool.false_eq_true, ↓reduceIte, reaches_bind, reaches_nextIs, arrow,
    reaches_pure]
  exact ⟨before', trivial⟩

/-! ### Levels -/

theorem BeginsWith.imp {marks marks' : List String} (h : BeginsWith marks ls)
    (sub : marks ⊆ marks') : BeginsWith marks' ls := by
  obtain ⟨m, mem, head⟩ := h
  exact ⟨m, sub mem, head⟩

theorem BeginsWith.lexeme {marks : List String} (begins : BeginsWith marks ls)
    (h : Before ls s) : ∃ m ∈ marks, s.token.lexeme = .mark m := by
  obtain ⟨m, mem, head⟩ := begins
  refine ⟨m, mem, ?_⟩
  rw [h.lexeme, List.headD_eq_head?_getD, head]
  rfl

/-- An operand without prefix operators in front of tokens that none of its operators could be. -/
theorem takes_unaryExpr {e : Expr} (opens : Opens ls)
    (notAwait : ls.head? ≠ some (.word "await" false)) (ends : BeginsWith operandEnds rest)
    (left : Takes (leftHandExpr r) c ls rest (·.detach = e)) :
    Takes (unaryExpr r) c ls rest (·.detach = e) := by
  have postfixed : Takes (postfixedExpr r) c ls rest (·.detach = e) := by
    intro s h
    unfold postfixedExpr
    simp only [reaches_bind, reaches_startOffset]
    refine (left s h).imp ?_
    rintro a s' ⟨before, ha⟩
    obtain ⟨m, mem, lexeme⟩ := ends.lexeme before
    have none : updateOp? s'.token = .none := by
      simp only [operandEnds, List.mem_cons, List.not_mem_nil, or_false] at mem
      rcases mem with rfl | rfl | rfl | rfl | rfl | rfl | rfl <;> simp [updateOp?, lexeme]
    simp only [reaches_peek, none, reaches_pure]
    exact ⟨before, ha⟩
  intro s h
  have plain : unaryOp? s.token = none ∧ updateOp? s.token = none ∧ s.token.isMark "<" = false ∧
      s.token.isWord "await" = false := by
    cases opens with
    | @name n mark more notReserved _ _ _ =>
        have typeOf := beq_reserved notReserved "typeof" (by decide)
        have void := beq_reserved notReserved "void" (by decide)
        have delete := beq_reserved notReserved "delete" (by decide)
        have await : n ≠ "await" := by simpa using notAwait
        simp only [beq_eq_false_iff_ne] at typeOf void delete
        simp [unaryOp?, updateOp?, Token.isMark, Token.isWord, h.cons, await]
        split <;> simp_all
    | keyword word =>
        rcases mem_openers word with rfl | rfl | rfl <;> simp [unaryOp?, updateOp?, Token.isMark, Token.isWord, h.cons]
    | string => simp [unaryOp?, updateOp?, Token.isMark, Token.isWord, h.cons]
    | brace => simp [unaryOp?, updateOp?, Token.isMark, Token.isWord, h.cons]
  obtain ⟨unary, update, angle, await⟩ := plain
  unfold unaryExpr
  simp only [reaches_bind, reaches_peek, unary, update, angle, await, Bool.false_eq_true,
    ↓reduceIte]
  exact postfixed s h

/-- An operand that no comment notes as pure. -/
theorem takes_notedPure {p : Parser Expr} {post : Expr → Prop} (h : Takes p c ls rest post) :
    Takes (notedPure p) c ls rest post := by
  intro s before
  unfold notedPure
  simp only [reaches_bind, reaches_get, before.callNote]
  refine (h s before).imp fun a s' here => ?_
  simpa only [Bool.false_eq_true, ↓reduceIte, reaches_pure] using here

theorem takes_binaryOperand {level : Nat} {chain : Nat → Parser Expr} {e : Expr}
    (opens : Opens ls) (notAwait : ls.head? ≠ some (.word "await" false))
    (ends : BeginsWith operandEnds rest)
    (left : Takes (leftHandExpr r) c ls rest (·.detach = e)) :
    Takes (binaryOperand r level chain) c ls rest (·.detach = e) := by
  have noted := takes_notedPure (takes_unaryExpr opens notAwait ends left)
  intro s h
  unfold binaryOperand
  simp only [reaches_bind, reaches_startOffset, reaches_peek]
  cases opens with
  | name =>
      simp only [h.cons]
      exact noted s h
  | keyword =>
      simp only [h.cons]
      exact noted s h
  | string =>
      simp only [h.cons]
      exact noted s h
  | brace =>
      simp only [h.cons]
      exact noted s h

/-- The marks behind a value that is complete. -/
def valueEnds : List String := [";", ",", ")", "]", "\x7d", "="]

/-- A chain of operators stops at a token that is none, or one that binds no more tightly. -/
theorem takes_binaryRest_end {start fuel level : Nat} {inParens : Bool} {e : Expr}
    (ends : BeginsWith valueEnds ls ∨ (BeginsWith operandEnds ls ∧ 10 ≤ level)) :
    Takes (binaryRest r (fuel + 1) start inParens level e) c ls ls (· = e) := by
  intro s h
  have stops : binaryOp? c.allowIn s.token = none ∨
      ∃ op, binaryOp? c.allowIn s.token = some (op, 10) ∧ 10 ≤ level := by
    rcases ends with ends | ⟨ends, high⟩
    · obtain ⟨m, mem, lexeme⟩ := ends.lexeme h
      simp only [valueEnds, List.mem_cons, List.not_mem_nil, or_false] at mem
      rcases mem with rfl | rfl | rfl | rfl | rfl | rfl <;> simp [binaryOp?, lexeme]
    · obtain ⟨m, mem, lexeme⟩ := ends.lexeme h
      simp only [operandEnds, List.mem_cons, List.not_mem_nil, or_false] at mem
      rcases mem with rfl | rfl | rfl | rfl | rfl | rfl | rfl <;> simp [binaryOp?, lexeme, high]
  have types : s.dialect.types = false := by rw [h.dialect]; rfl
  unfold binaryRest
  simp only [reaches_bind, reaches_peek, reaches_read, reaches_dialect, types, Bool.false_and,
    Bool.false_eq_true, ↓reduceIte]
  rcases stops with none | ⟨op, some, high⟩
  · simp only [none, reaches_pure]
    exact ⟨h, trivial⟩
  · simp only [some, high, ↓reduceIte, reaches_pure]
    exact ⟨h, trivial⟩

/-! ### Objects -/

/-- The keys of made-up objects: a word or a string. -/
inductive KeyForms : Lexeme → Key → Prop where
  | word (n : String) : KeyForms (.word n false) (.name .detached n)
  | string (v : Text.StringValue) : KeyForms (.string v) (.string .detached v)

theorem takes_propertyKey {k : Key} (key : KeyForms l k) :
    Takes (propertyKey r) c (l :: ls) ls (·.detach = k) := by
  intro s h
  unfold propertyKey
  cases key with
  | word n =>
      simp only [reaches_bind, reaches_peek, h.cons, reaches_skip, reaches_pure]
      exact ⟨h.next, rfl⟩
  | string v =>
      simp only [reaches_bind, reaches_peek, h.cons, reaches_advance, Token.isEscaped,
        reaches_pure]
      exact ⟨trivial, h.next, rfl⟩

theorem takes_objectMember {k : Key} {e : Expr} (key : KeyForms l k)
    (value : Takes r.assignment c ls rest (·.detach = e)) :
    Takes (objectMember r) c (l :: .mark ":" :: ls) rest
      (·.detach = .property .detached k e false) := by
  intro s h
  have spread : s.token.isMark "..." = false := by
    cases key <;> simp [Token.isMark, h.cons]
  have star : s.token.isMark "*" = false := by
    cases key <;> simp [Token.isMark, h.cons]
  have noKey : startsKey s.next.token = false := by simp [startsKey, h.next.cons]
  have noStar : s.next.token.isMark "*" = false := by simp [Token.isMark, h.next.cons]
  unfold objectMember
  simp only [reaches_bind, reaches_startOffset, reaches_peek, reaches_eatMark, spread,
    Bool.false_eq_true, ↓reduceIte, reaches_nextIs, noKey, noStar, Bool.or_false, Bool.false_and,
    Bool.and_false, reaches_pure, star, reaches_ite, Bool.not_false]
  refine (takes_propertyKey key s h).imp ?_
  rintro a s' ⟨before, ha⟩
  have brackets : s'.token.isMarkOf ["(", "<"] = false := by simp [Token.isMarkOf, before.cons]
  have colon := isMark_of_eq before.cons
  simp only [brackets, ↓reduceIte, colon]
  refine (value s'.next before.next).imp ?_
  rintro b s'' ⟨behind, hb⟩
  simp only [reaches_spanFrom]
  exact ⟨behind, by simp [Expr.detach, ha, hb]⟩

theorem before_noteCommaAfterRest (h : Before ls s) (items : List Expr) (start : Nat) :
    Before ls (match items.getLast? with
      | some (.spread span _) =>
        if s.lastEnd == span.stop then s else { s with commaAfterRest := start :: s.commaAfterRest }
      | _ => s) := by
  split
  · split
    · exact h
    · exact { h with }
  · exact h

/-! ### Phrases -/

/-- A member of a made-up object, as lexemes and as syntax. -/
structure MadeMember where
  key : Lexeme
  keyTree : Key
  lexemes : List Lexeme
  value : Expr

/-- The lexemes of a member. -/
def MadeMember.all (m : MadeMember) : List Lexeme := m.key :: .mark ":" :: m.lexemes

/-- A member as syntax. -/
def MadeMember.tree (m : MadeMember) : Expr := .property .detached m.keyTree m.value false

/-- How much of an expression some lexemes may be: a member access or a call, or a sum. -/
inductive Level where
  | operand | sum

/-- Whether some lexemes form an expression. -/
inductive Forms : Level → List Lexeme → Expr → Prop where
  | name {n : String} (plain : IsPlainName n) : Forms .operand [.word n false] (.ident .detached n)
  | this : Forms .operand [.word "this" false] (.this .detached)
  | true : Forms .operand [.word "true" false] (.bool .detached true)
  | emptyClass : Forms .operand (classLexemes none) (.classExpr (madeClass none rfl))
  | string (v : Text.StringValue) : Forms .operand [.string v] (.string .detached v)
  | object (members : List MadeMember) (keys : ∀ m ∈ members, KeyForms m.key m.keyTree)
      (values : ∀ m ∈ members, Forms .sum m.lexemes m.value) :
      Forms .operand
        (.mark "\x7b" :: (commaJoined (members.map (·.all)) ++ [.mark "\x7d"]))
        (.object .detached (members.map (·.tree)))
  | member {ls : List Lexeme} {e : Expr} (object : Forms .operand ls e) (n : String) :
      Forms .operand (ls ++ [.mark ".", .word n false])
        (.member .detached e ⟨.detached, n⟩ false)
  | index {ls ks : List Lexeme} {e k : Expr} (object : Forms .operand ls e)
      (key : Forms .sum ks k) :
      Forms .operand (ls ++ .mark "[" :: (ks ++ [.mark "]"])) (.index .detached e k false)
  | call {ls : List Lexeme} {e : Expr} (callee : Forms .operand ls e)
      (notAsync : ls ≠ [.word "async" false]) (args : List (List Lexeme × Expr))
      (each : ∀ a ∈ args, Forms .sum a.1 a.2) :
      Forms .operand (ls ++ .mark "(" :: (commaJoined (args.map (·.1)) ++ [.mark ")"]))
        (.call .detached e [] (args.map (·.2)) false false)
  | single {ls : List Lexeme} {e : Expr} (operand : Forms .operand ls e) : Forms .sum ls e
  | add {ls ks : List Lexeme} {a b : Expr} (left : Forms .sum ls a) (right : Forms .operand ks b) :
      Forms .sum (ls ++ .mark "+" :: ks) (.binary .detached .add a b)

/-- The marks that may follow a phrase. -/
def phraseEnds : List String := [";", ",", ")", "]", "\x7d", "+", "=", ".", "[", "("]

/-- A phrase opens an expression, whatever follows it. -/
theorem Forms.opens {level : Level} {e : Expr} (h : Forms level ls e) (tail : List Lexeme)
    (ends : BeginsWith phraseEnds tail)
    (async : ls = [.word "async" false] → tail.head? ≠ some (.mark "(")) :
    Opens (ls ++ tail) := by
  induction h generalizing tail with
  | @name n plain =>
      obtain ⟨m, mem, head⟩ := ends
      obtain ⟨more, rfl⟩ : ∃ more, tail = .mark m :: more := by
        cases tail with
        | nil => cases head
        | cons l more => exact ⟨more, by rw [Option.some.inj head]⟩
      refine .name plain.notReserved ?_ ?_ ?_
      · rintro rfl
        revert mem
        decide
      · rintro rfl
        revert mem
        decide
      · rintro rfl
        refine ⟨by simpa using async rfl, ?_⟩
        rintro rfl
        revert mem
        decide
  | this =>
      obtain ⟨m, mem, head⟩ := ends
      cases tail with
      | nil => cases head
      | cons l more => exact .keyword (by decide)
  | true =>
      obtain ⟨m, mem, head⟩ := ends
      cases tail with
      | nil => cases head
      | cons l more => exact .keyword (by decide)
  | emptyClass => exact .keyword (by decide)
  | string v =>
      obtain ⟨m, mem, head⟩ := ends
      cases tail with
      | nil => cases head
      | cons l more => exact .string
  | object members keys values ih =>
      cases hm : commaJoined (members.map (·.all)) with
      | nil => exact .brace
      | cons l more => exact .brace
  | member object n ih =>
      rw [List.append_assoc]
      exact ih _ ⟨".", by decide, rfl⟩ (by simp)
  | index object key ih _ =>
      rw [List.append_assoc]
      exact ih _ ⟨"[", by decide, rfl⟩ (by simp)
  | call callee notAsync args each ih _ =>
      rw [List.append_assoc]
      exact ih _ ⟨"(", by decide, rfl⟩ fun h => absurd h notAsync
  | single operand ih => exact ih tail ends async
  | add left right ih _ =>
      rw [List.append_assoc]
      exact ih _ ⟨"+", by decide, rfl⟩ (by simp)

/-- No phrase waits for anything. -/
theorem Forms.notAwait {level : Level} {e : Expr} (h : Forms level ls e) (tail : List Lexeme) :
    (ls ++ tail).head? ≠ some (.word "await" false) := by
  induction h generalizing tail with
  | name plain => simp [plain.notAwait]
  | this => simp
  | true => simp
  | emptyClass => simp [classLexemes]
  | string v => simp
  | object members keys values ih => simp
  | member object n ih => rw [List.append_assoc]; exact ih _
  | index object key ih _ => rw [List.append_assoc]; exact ih _
  | call callee notAsync args each ih _ => rw [List.append_assoc]; exact ih _
  | single operand ih => exact ih tail
  | add left right ih _ => rw [List.append_assoc]; exact ih _

/-! ### Reading phrases -/

/-- An operand and what follows it. -/
def headed (r : Rules) (start : Nat) : Parser (Expr × Bool) := do
  let head ← primary r
  suffixes r start true ((← bound) + 1) head false

/-- Whether the rules read some lexemes as an expression: once they are read, the rest of the text
is read as what goes on from the expression. -/
def ReadsAs (r : Rules) : Level → List Lexeme → Expr → Prop
  | .operand, ls, e =>
    ∀ c, Surroundings.IsOrdinary c → ∀ tail rest (post : Expr × Bool → Prop) start,
      BeginsWith phraseEnds tail →
      (∀ fuel e', e'.detach = e → tail.length < fuel →
        Takes (suffixes r start true fuel e' false) c tail rest post) →
      Takes (headed r start) c (ls ++ tail) rest post
  | .sum, ls, e =>
    ∀ c, Surroundings.IsOrdinary c → ∀ tail rest (post : Expr → Prop),
      BeginsWith operandEnds tail →
      (∀ fuel start inParens e', e'.detach = e → tail.length < fuel →
        Takes (binaryRest r fuel start inParens 0 e') c tail rest post) →
      ∀ fuel, (ls ++ tail).length < fuel → Takes (binaryChain r fuel 0) c (ls ++ tail) rest post

/-- An operand that is complete. -/
theorem ReadsAs.leftHand {e : Expr} (h : ReadsAs r .operand ls e)
    (hc : Surroundings.IsOrdinary c) (ends : BeginsWith operandEnds tail) :
    Takes (leftHandExpr r) c (ls ++ tail) tail (·.detach = e) := by
  intro s before
  have head := h c hc tail tail (fun p => p.1.detach = e ∧ p.2 = false) s.token.span.start
    (ends.imp (by decide))
    (fun fuel e' he hfuel => by
      obtain ⟨fuel, rfl⟩ := Nat.exists_eq_add_one.mpr (Nat.zero_lt_of_lt hfuel)
      exact (takes_suffixes_end ends).imp fun p hp => by rw [hp]; exact ⟨he, rfl⟩) s before
  simp only [headed, reaches_bind, reaches_bound] at head
  unfold leftHandExpr
  simp only [reaches_bind, reaches_startOffset, reaches_bound]
  refine head.imp fun a s' inner => inner.imp ?_
  rintro ⟨e', linked⟩ s'' ⟨behind, he, rfl⟩
  simp only [Bool.false_eq_true, ↓reduceIte, reaches_pure]
  exact ⟨behind, he⟩

/-- A value that is complete. -/
theorem ReadsAs.choice {e : Expr} (h : ReadsAs r .sum ls e) (hc : Surroundings.IsOrdinary c)
    (ends : BeginsWith valueEnds tail) :
    Takes (choiceExpr r) c (ls ++ tail) tail (·.detach = e) := by
  intro s before
  have chain := h c hc tail tail (·.detach = e) (ends.imp (by decide))
    (fun fuel start inParens e' he hfuel => by
      obtain ⟨fuel, rfl⟩ := Nat.exists_eq_add_one.mpr (Nat.zero_lt_of_lt hfuel)
      exact (takes_binaryRest_end (.inl ends)).imp fun a ha => by rw [ha]; exact he)
    (s.fuel + 1) (Nat.lt_succ_of_le before.bound) s before
  unfold choiceExpr
  simp only [reaches_bind, reaches_startOffset, reaches_bound]
  refine chain.imp ?_
  rintro a s' ⟨behind, ha⟩
  obtain ⟨m, mem, lexeme⟩ := ends.lexeme behind
  have question : s'.token.isMark "?" = false := by
    apply isMark_of_ne
    rw [lexeme]
    simp only [ne_eq, Lexeme.mark.injEq]
    rintro rfl
    revert mem
    decide
  simp only [reaches_eatMark, question, Bool.false_eq_true, ↓reduceIte, reaches_pure]
  exact ⟨behind, ha⟩

/-- An expression that no word `yield` and no arrow function begins. -/
theorem takes_assignmentExpr {post : Expr → Prop} (opens : Opens ls)
    (hc : Surroundings.IsOrdinary c)
    (left : ∀ start, Takes (assignmentFrom r start false) c ls rest post) :
    Takes (assignmentExpr r) c ls rest post := by
  intro s h
  have noYield : (s.token.isWord "yield" && (c.isYield || showsOperator s.next.token)) = false := by
    cases opens with
    | name => simp [hc.isYield, showsOperator, h.next.cons]
    | keyword word => rcases mem_openers word with rfl | rfl | rfl <;> simp [Token.isWord, h.cons]
    | string => simp [Token.isWord, h.cons]
    | brace => simp [Token.isWord, h.cons]
  have noticed : Before ls s.noticed := by
    obtain ⟨l, m, more, rfl⟩ := opens.two
    exact h.noticed
  unfold assignmentExpr
  simp only [reaches_bind, reaches_startOffset, reaches_get, reaches_atWord, reaches_read,
    reaches_probeNext, noYield, Bool.false_eq_true, ↓reduceIte, h.callNote, h.functionNote]
  refine (takes_arrow? opens s.noticed noticed).imp ?_
  rintro _ s' ⟨before, rfl⟩
  simp only [reaches_bind, reaches_pure]
  exact left s.token.span.start s' before

/-- The marks behind an expression in which nothing is assigned. -/
def expressionEnds : List String := [";", ",", ")", "]", "\x7d"]

theorem ReadsAs.assignment {e : Expr} (h : ReadsAs r .sum ls e) (forms : Forms .sum ls e)
    (hc : Surroundings.IsOrdinary c) (ends : BeginsWith expressionEnds tail) :
    Takes (assignmentExpr r) c (ls ++ tail) tail (·.detach = e) := by
  have noParen : tail.head? ≠ some (.mark "(") := by
    obtain ⟨m, mem, head⟩ := ends
    rw [head]
    simp only [ne_eq, Option.some.injEq, Lexeme.mark.injEq]
    rintro rfl
    revert mem
    decide
  refine takes_assignmentExpr (forms.opens tail (ends.imp (by decide)) fun _ => noParen) hc ?_
  intro start s before
  unfold assignmentFrom
  simp only [reaches_bind]
  refine (h.choice hc (ends.imp (by decide)) s before).imp ?_
  rintro a s' ⟨behind, ha⟩
  obtain ⟨m, mem, lexeme⟩ := ends.lexeme behind
  have none : assignOp? s'.token = .none := by
    simp only [expressionEnds, List.mem_cons, List.not_mem_nil, or_false] at mem
    rcases mem with rfl | rfl | rfl | rfl | rfl <;> simp [assignOp?, lexeme]
  simp only [reaches_peek, none, Bool.false_eq_true, ↓reduceIte, reaches_pure]
  exact ⟨behind, ha⟩

/-! ### Every phrase is read -/

/-- An operand that is no member access and no call. -/
theorem readsAs_of_primary {e : Expr}
    (h : ∀ c, Surroundings.IsOrdinary c → ∀ tail, BeginsWith phraseEnds tail →
      Takes (primary r) c (ls ++ tail) tail (·.detach = e)) :
    ReadsAs r .operand ls e := by
  intro c hc tail rest post start ends more s before
  unfold headed
  simp only [reaches_bind, reaches_bound]
  refine (h c hc tail ends s before).imp ?_
  rintro head s' ⟨behind, hhead⟩
  exact more (s'.fuel + 1) head hhead (Nat.lt_succ_of_le behind.bound) s' behind

theorem readsAs_name {n : String} (plain : IsPlainName n) :
    ReadsAs r .operand [.word n false] (.ident .detached n) := by
  apply readsAs_of_primary
  intro c hc tail ends
  apply takes_primary_name plain hc.isYield
  obtain ⟨m, _, head⟩ := ends
  intro escaped
  rw [List.headD_eq_head?_getD, List.append_eq, List.nil_append, head]
  simp

/-- An expression without a comma at its top. -/
theorem takes_expression {post : Expr → Prop} {marks : List String} (noComma : "," ∉ marks)
    (ends : BeginsWith marks rest) (hc : Surroundings.IsOrdinary c)
    (value : ∀ c, Surroundings.IsOrdinary c → Takes r.assignment c ls rest post) :
    Takes (expression r) c ls rest post := by
  intro s h
  unfold expression undecorated
  simp only [reaches_within, reaches_bind, reaches_startOffset]
  refine (value _ (undecorated_isOrdinary hc) s h).imp ?_
  rintro a s' ⟨behind, ha⟩
  obtain ⟨m, mem, lexeme⟩ := ends.lexeme behind
  have comma : s'.token.isMark "," = false := by
    apply isMark_of_ne
    rw [lexeme]
    simp only [ne_eq, Lexeme.mark.injEq]
    rintro rfl
    exact noComma mem
  simp only [reaches_atMark, comma, Bool.false_eq_true, ↓reduceIte, reaches_pure]
  exact ⟨behind, ha⟩

theorem readsAs_index {ks : List Lexeme} {e k : Expr} (object : ReadsAs r .operand ls e)
    (key : ∀ c, Surroundings.IsOrdinary c → ∀ tail, BeginsWith expressionEnds tail →
      Takes r.assignment c (ks ++ tail) tail (·.detach = k)) :
    ReadsAs r .operand (ls ++ .mark "[" :: (ks ++ [.mark "]"])) (.index .detached e k false) := by
  intro c hc tail rest post start ends more
  rw [List.append_assoc]
  refine object c hc _ rest post start ⟨"[", by decide, rfl⟩ fun fuel e' he hfuel => ?_
  obtain ⟨fuel, rfl⟩ := Nat.exists_eq_add_one.mpr (Nat.zero_lt_of_lt hfuel)
  intro s h
  rw [List.cons_append, List.append_assoc, List.singleton_append] at h
  have close : BeginsWith ["]"] (.mark "]" :: tail) := ⟨"]", by decide, rfl⟩
  have inner := takes_expression (by decide) close (bracketed_isOrdinary hc) fun c' hc' =>
    key c' hc' _ (close.imp (by decide))
  unfold suffixes bracketed
  simp only [reaches_bind, reaches_peek, reaches_read, reaches_dialect, h.cons, hc.isDecorator,
    Bool.false_eq_true, ↓reduceIte, reaches_advance, Token.isEscaped, reaches_within, true_and]
  refine (inner s.next h.next).imp ?_
  rintro a s' ⟨behind, ha⟩
  simp only [reaches_expectMark, isMark_of_eq behind.cons, reaches_spanFrom, true_and]
  refine more fuel _ (by simp [Expr.detach, he, ha]) ?_ s'.next behind.next
  simp only [List.cons_append, List.length_cons, List.length_append] at hfuel
  omega

theorem readsAs_member {e : Expr} (object : ReadsAs r .operand ls e) (n : String) :
    ReadsAs r .operand (ls ++ [.mark ".", .word n false])
      (.member .detached e ⟨.detached, n⟩ false) := by
  intro c hc tail rest post start ends more
  rw [List.append_assoc]
  refine object c hc _ rest post start ⟨".", by decide, rfl⟩ fun fuel e' he hfuel => ?_
  obtain ⟨fuel, rfl⟩ := Nat.exists_eq_add_one.mpr (Nat.zero_lt_of_lt hfuel)
  refine takes_suffixes_member fun span property => more fuel _ ?_ ?_
  · simp [Expr.detach, Ident.detach, he]
  · simp only [List.cons_append, List.nil_append, List.length_cons] at hfuel
    omega

theorem detachExprs_eq {ι : Type} {tree : ι → Expr} {items : List ι} {es : List Expr}
    (h : List.Forall₂ (fun x e => e.detach = tree x) items es) :
    detachExprs es = items.map tree := by
  induction h with
  | nil => rfl
  | cons here _ ih => rw [detachExprs, here, ih, List.map_cons]

/-- The arguments of a call. -/
theorem takes_arguments {args : List (List Lexeme × Expr)} (hc : Surroundings.IsOrdinary c)
    (opens : ∀ a ∈ args, ∃ l more, a.1 = l :: more ∧ l ≠ .mark ")" ∧ l ≠ .mark "...")
    (values : ∀ a ∈ args, ∀ c, Surroundings.IsOrdinary c → ∀ tail,
      BeginsWith expressionEnds tail → Takes r.assignment c (a.1 ++ tail) tail (·.detach = a.2)) :
    Takes (arguments r) c
      (.mark "(" :: (commaJoined (args.map (·.1)) ++ .mark ")" :: tail)) tail
      (detachExprs · = args.map (·.2)) := by
  have items (c : Surroundings) (hc : Surroundings.IsOrdinary c) :
      TakesItems (spreadable r) c ")" (·.1) (fun a e => e.detach = a.2) args := by
    refine ⟨fun a ha => ?_, fun a ha tail ends => ?_⟩
    · obtain ⟨l, more, eq, notClose, _⟩ := opens a ha
      exact ⟨l, more, eq, notClose⟩
    · obtain ⟨l, more, eq, _, notSpread⟩ := opens a ha
      intro s h
      have spread : s.token.isMark "..." = false := by
        apply isMark_of_ne
        rw [h.lexeme, eq]
        exact notSpread
      unfold spreadable
      simp only [reaches_bind, reaches_startOffset, reaches_eatMark, spread, Bool.false_eq_true,
        ↓reduceIte]
      exact values a ha c hc tail (ends.imp (by decide)) s h
  intro s h
  unfold arguments undecorated constructionArguments bracketed
  simp only [reaches_within, reaches_bind, reaches_expectMark, isMark_of_eq h.cons, true_and]
  refine (takes_commaItems (by decide) (items _ (bracketed_isOrdinary (undecorated_isOrdinary hc))) s.next h.next).imp ?_
  rintro as s' ⟨behind, all⟩
  simp only [isMark_of_eq behind.cons, reaches_pure, true_and]
  exact ⟨behind.next, detachExprs_eq all⟩

theorem readsAs_call {e : Expr} {args : List (List Lexeme × Expr)}
    (callee : ReadsAs r .operand ls e)
    (opens : ∀ a ∈ args, ∃ l more, a.1 = l :: more ∧ l ≠ .mark ")" ∧ l ≠ .mark "...")
    (values : ∀ a ∈ args, ∀ c, Surroundings.IsOrdinary c → ∀ tail,
      BeginsWith expressionEnds tail → Takes r.assignment c (a.1 ++ tail) tail (·.detach = a.2)) :
    ReadsAs r .operand (ls ++ .mark "(" :: (commaJoined (args.map (·.1)) ++ [.mark ")"]))
      (.call .detached e [] (args.map (·.2)) false false) := by
  intro c hc tail rest post start ends more
  rw [List.append_assoc]
  refine callee c hc _ rest post start ⟨"(", by decide, rfl⟩ fun fuel e' he hfuel => ?_
  obtain ⟨fuel, rfl⟩ := Nat.exists_eq_add_one.mpr (Nat.zero_lt_of_lt hfuel)
  intro s h
  rw [List.cons_append, List.append_assoc, List.singleton_append] at h
  unfold suffixes
  simp only [reaches_bind, reaches_peek, reaches_read, reaches_dialect, h.cons, ↓reduceIte]
  refine (takes_arguments hc opens values s h).imp ?_
  rintro as s' ⟨behind, eq⟩
  simp only [reaches_spanFrom]
  refine more fuel _ (by simp [Expr.detach, detachTypes, he, eq]) ?_ s' behind
  simp only [List.cons_append, List.length_cons, List.length_append] at hfuel
  omega

theorem readsAs_object {members : List MadeMember}
    (keys : ∀ m ∈ members, KeyForms m.key m.keyTree)
    (values : ∀ m ∈ members, ∀ c, Surroundings.IsOrdinary c → ∀ tail,
      BeginsWith expressionEnds tail →
      Takes r.assignment c (m.lexemes ++ tail) tail (·.detach = m.value)) :
    ReadsAs r .operand
      (.mark "\x7b" :: (commaJoined (members.map (·.all)) ++ [.mark "\x7d"]))
      (.object .detached (members.map (·.tree))) := by
  apply readsAs_of_primary
  intro c hc tail _ s h
  rw [List.cons_append, List.append_assoc, List.singleton_append] at h
  have items (c : Surroundings) (hc : Surroundings.IsOrdinary c) :
      TakesItems (objectMember r) c "\x7d" (·.all) (fun m e => e.detach = m.tree) members := by
    refine ⟨fun m hm => ⟨m.key, _, rfl, ?_⟩, fun m hm tail ends => ?_⟩
    · have := keys m hm
      cases hkey : m.key with
      | mark text =>
          rw [hkey] at this
          cases this
      | _ => simp
    · exact takes_objectMember (keys m hm) (values m hm c hc tail (ends.imp (by decide)))
  unfold primary
  simp only [reaches_bind, reaches_startOffset, reaches_peek, h.cons]
  unfold objectLiteral bracketed
  simp only [reaches_bind, reaches_startOffset, reaches_expectMark, isMark_of_eq h.cons,
    reaches_within, true_and]
  refine (takes_commaItems (by decide) (items _ (bracketed_isOrdinary hc)) s.next h.next).imp ?_
  rintro as s' ⟨behind, all⟩
  unfold noteCommaAfterRest
  simp only [reaches_modify, reaches_spanFrom, reaches_pure]
  have here := before_noteCommaAfterRest behind as s.token.span.start
  refine ⟨isMark_of_eq here.cons, here.next, ?_⟩
  simp [Expr.detach, detachExprs_eq all]

/-- A chain of operators that begins with an operand. -/
theorem takes_binaryChain {level : Nat} {e : Expr} {post : Expr → Prop}
    (forms : Forms .operand ls e) (h : ReadsAs r .operand ls e) (nonempty : ls ≠ [])
    (hc : Surroundings.IsOrdinary c) (ends : BeginsWith operandEnds tail)
    (more : ∀ fuel start inParens e', e'.detach = e → tail.length < fuel →
      Takes (binaryRest r fuel start inParens level e') c tail rest post)
    {fuel : Nat} (hfuel : (ls ++ tail).length < fuel) :
    Takes (binaryChain r fuel level) c (ls ++ tail) rest post := by
  obtain ⟨fuel, rfl⟩ := Nat.exists_eq_add_one.mpr (Nat.zero_lt_of_lt hfuel)
  have noParen : tail.head? ≠ some (.mark "(") := by
    obtain ⟨m, mem, head⟩ := ends
    rw [head]
    simp only [ne_eq, Option.some.injEq, Lexeme.mark.injEq]
    rintro rfl
    revert mem
    decide
  have opens := forms.opens tail (ends.imp (by decide)) fun _ => noParen
  have length := List.length_pos_iff.mpr nonempty
  intro s before
  unfold binaryChain
  simp only [reaches_bind, reaches_startOffset, reaches_atMark]
  refine (takes_binaryOperand opens (forms.notAwait tail) ends (h.leftHand hc ends) s before).imp ?_
  rintro a s' ⟨behind, ha⟩
  refine more fuel _ _ a ha ?_ s' behind
  simp only [List.length_append] at hfuel
  omega

theorem readsAs_single {e : Expr} (forms : Forms .operand ls e) (h : ReadsAs r .operand ls e)
    (nonempty : ls ≠ []) : ReadsAs r .sum ls e :=
  fun _ hc _ _ _ ends more _ hfuel => takes_binaryChain forms h nonempty hc ends more hfuel

theorem readsAs_add {ks : List Lexeme} {a b : Expr} (left : ReadsAs r .sum ls a)
    (forms : Forms .operand ks b) (right : ReadsAs r .operand ks b) (nonempty : ks ≠ []) :
    ReadsAs r .sum (ls ++ .mark "+" :: ks) (.binary .detached .add a b) := by
  intro c hc tail rest post ends more fuel hfuel
  rw [List.append_assoc] at hfuel ⊢
  refine left c hc _ rest post ⟨"+", by decide, rfl⟩ (fun fuel start inParens a' ha hfuel => ?_)
    fuel hfuel
  obtain ⟨fuel, rfl⟩ := Nat.exists_eq_add_one.mpr (Nat.zero_lt_of_lt hfuel)
  have length := List.length_pos_iff.mpr nonempty
  simp only [List.cons_append, List.length_cons, List.length_append] at hfuel
  -- the operator to the right of the second operand binds no more tightly than the sum
  have operand : Takes (binaryChain r fuel 10) c (ks ++ tail) tail (·.detach = b) := by
    refine takes_binaryChain forms right nonempty hc ends
      (fun fuel start inParens e' he hfuel => ?_) (by rw [List.length_append]; omega)
    obtain ⟨fuel, rfl⟩ := Nat.exists_eq_add_one.mpr (Nat.zero_lt_of_lt hfuel)
    exact (takes_binaryRest_end (.inr ⟨ends, le_refl _⟩)).imp fun e eq => by rw [eq]; exact he
  intro s h
  rw [List.cons_append] at h
  have types : s.dialect.types = false := by rw [h.dialect]; rfl
  have plus : binaryOp? c.allowIn s.token = some (.add, 10) := by simp [binaryOp?, h.cons]
  have power : (BinaryOp.add == .power) = false := rfl
  have escaped : s.token.isEscaped = false := by simp [Token.isEscaped, h.cons]
  unfold binaryRest
  simp only [reaches_bind, reaches_peek, reaches_read, reaches_dialect, types, Bool.false_and,
    Bool.false_eq_true, ↓reduceIte, plus, Nat.reduceLeDiff, reaches_advance, reaches_atMark, power,
    escaped, true_and]
  refine (operand s.next h.next).imp ?_
  rintro b' s' ⟨behind, hb⟩
  simp only [mixesWell, reaches_ensure, reaches_spanFrom, true_and]
  exact more fuel _ _ _ (by simp [Expr.detach, ha, hb]) (by omega) s' behind

theorem Forms.ne_nil {level : Level} {e : Expr} (h : Forms level ls e) : ls ≠ [] := by
  induction h with
  | single operand ih => exact ih
  | emptyClass => simp [classLexemes]
  | _ => simp

theorem length_le_commaJoined {xs : List (List Lexeme)} {x : List Lexeme} (mem : x ∈ xs) :
    x.length ≤ (commaJoined xs).length := by
  cases xs with
  | nil => cases mem
  | cons first more =>
      rcases List.mem_cons.mp mem with rfl | mem
      · simp [commaJoined]
      · obtain ⟨before, behind, rfl⟩ := List.append_of_mem mem
        simp only [commaJoined, List.flatMap_append, List.flatMap_cons, List.length_append,
          List.length_cons]
        omega

/-- The first lexeme of a phrase closes no list and spreads nothing. -/
theorem Forms.head {level : Level} {e : Expr} (h : Forms level ls e) :
    ∃ l more, ls = l :: more ∧ l ≠ .mark ")" ∧ l ≠ .mark "..." := by
  have opens := h.opens [.mark ";"] ⟨";", by decide, rfl⟩ (by simp)
  obtain ⟨l, more, eq⟩ := List.exists_cons_of_ne_nil h.ne_nil
  refine ⟨l, more, eq, ?_⟩
  rw [eq] at opens
  cases more with
  | nil => cases opens <;> simp
  | cons m more => cases opens <;> simp

theorem assignment_rules (depth : Nat) :
    (rules (depth + 1)).assignment = assignmentExpr (rules depth) := by
  funext c s
  rw [rules]

/-- Whatever the phrase grammar derives is read as it says, by rules that nest deeply enough. -/
theorem Forms.readsAs {level : Level} {e : Expr} (h : Forms level ls e) :
    ∀ depth, ls.length ≤ depth → ReadsAs (rules depth) level ls e := by
  induction h with
  | name plain => exact fun depth _ => readsAs_name plain
  | this => exact fun depth _ => readsAs_of_primary fun _ _ _ _ => takes_primary_this
  | true => exact fun depth _ => readsAs_of_primary fun _ _ _ _ => takes_primary_true
  | emptyClass =>
      exact fun depth _ => readsAs_of_primary fun _ hc _ _ => takes_primary_class hc.isYield
  | string v => exact fun depth _ => readsAs_of_primary fun _ _ _ _ => takes_primary_string
  | object members keys values ih =>
      intro depth hdepth
      simp only [List.length_cons, List.length_append] at hdepth
      obtain ⟨depth, rfl⟩ := Nat.exists_eq_add_one.mpr (Nat.zero_lt_of_lt hdepth)
      refine readsAs_object keys fun m hm c hc tail ends => ?_
      have short : m.all.length ≤ (commaJoined (members.map (·.all))).length :=
        length_le_commaJoined (List.mem_map_of_mem hm)
      have length : m.all.length = m.lexemes.length + 2 := rfl
      rw [assignment_rules]
      exact (ih m hm depth (by omega)).assignment (values m hm) hc ends
  | member object n ih =>
      intro depth hdepth
      rw [List.length_append] at hdepth
      exact readsAs_member (ih depth (by omega)) n
  | index object key ihObject ihKey =>
      intro depth hdepth
      simp only [List.length_append, List.length_cons] at hdepth
      obtain ⟨depth, rfl⟩ := Nat.exists_eq_add_one.mpr (show 0 < depth by omega)
      refine readsAs_index (ihObject _ (by omega)) fun c hc tail ends => ?_
      rw [assignment_rules]
      exact (ihKey depth (by omega)).assignment key hc ends
  | call callee notAsync args each ihCallee ihArgs =>
      intro depth hdepth
      simp only [List.length_append, List.length_cons] at hdepth
      obtain ⟨depth, rfl⟩ := Nat.exists_eq_add_one.mpr (show 0 < depth by omega)
      refine readsAs_call (ihCallee _ (by omega)) (fun a ha => (each a ha).head)
        fun a ha c hc tail ends => ?_
      have short : a.1.length ≤ (commaJoined (args.map (·.1))).length :=
        length_le_commaJoined (List.mem_map_of_mem ha)
      rw [assignment_rules]
      exact (ihArgs a ha depth (by omega)).assignment (each a ha) hc ends
  | single operand ih =>
      exact fun depth hdepth => readsAs_single operand (ih depth hdepth) operand.ne_nil
  | add left right ihLeft ihRight =>
      intro depth hdepth
      simp only [List.length_append, List.length_cons] at hdepth
      exact readsAs_add (ihLeft depth (by omega)) right (ihRight depth (by omega)) right.ne_nil

/-- A value, read as an expression that assigns nothing. -/
theorem Forms.takes {e : Expr} (h : Forms .sum ls e) {depth : Nat} (hdepth : ls.length ≤ depth)
    (hc : Surroundings.IsOrdinary c) (ends : BeginsWith expressionEnds tail) :
    Takes (rules (depth + 1)).assignment c (ls ++ tail) tail (·.detach = e) := by
  rw [assignment_rules]
  exact (h.readsAs depth hdepth).assignment h hc ends

end Parser

end ComponentLowering.Syntax
