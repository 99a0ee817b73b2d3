/-
# Reading made-up class members

The constructor and the getters that lowering adds to a class are read as members of a class that
is made up around them.  A getter that is named like the constructor is refused, and with it all
that is read together with it.
-/
import ComponentLowering.Proofs.Syntax.MadeBlocks
import ComponentLowering.Proofs.Syntax.Refused

namespace ComponentLowering.Syntax

namespace Parser

variable {α ι : Type} {c : Surroundings} {s : Reading} {r : Rules} {l : Lexeme}
  {ls mid rest tail : List Lexeme} {post : α → Prop}

/-! ### Functions -/

/-- A plain parameter as it is made up. -/
def madeParam (name : String) : Param :=
  ⟨.detached, [], none, false, false, .ident .detached name, false, none⟩

/-- A function without a name, as it is made up. -/
def madeFunction (params : List String) (body : List Stmt) : Func :=
  ⟨.detached, none, false, false, false, false, false, [], [], params.map madeParam, none,
    .block .detached [] body⟩

/-- The parameters and the body of a function, as lexemes. -/
def functionLexemes (params : List String) (items : List (List Lexeme × Stmt)) : List Lexeme :=
  .mark "(" :: (commaJoined (params.map fun n => [.word n false]) ++
    .mark ")" :: blockLexemes items)

/-- No decorators stand in front of a word. -/
theorem takes_decorators_none {n : String} :
    Takes (decorators r) c (.word n false :: ls) (.word n false :: ls) (· = []) := by
  refine takes_collect_none fun s h => ?_
  have sign : s.token.isMark "@" = false := by simp [Token.isMark, h.cons]
  simp only [reaches_bind, reaches_atMark, sign, Bool.false_eq_true, ↓reduceIte, reaches_pure]
  exact ⟨h, trivial⟩

theorem takes_parameter {n : String} {ofConstructor : Bool} {r' : Rules} (plain : IsPlainName n)
    (hr : r.pattern = bindingPattern r') (hc : c.isYield = false)
    (ends : BeginsWith [",", ")"] ls) :
    Takes (parameter r ofConstructor) c (.word n false :: ls) ls (·.detach = madeParam n) := by
  intro s h
  have spread : s.token.isMark "..." = false := by simp [Token.isMark, h.cons]
  unfold parameter
  simp only [reaches_bind, reaches_atMark, spread, Bool.false_eq_true, ↓reduceIte,
    reaches_startOffset]
  refine (takes_decorators_none s h).imp ?_
  rintro _ s1 ⟨h1, rfl⟩
  have types : s1.dialect.types = false := by rw [h1.dialect]; rfl
  unfold parameterFrom typeAnnotation eatTypeColon withInitializer
  simp only [reaches_bind, reaches_dialect, types, Bool.false_eq_true, ↓reduceIte, reaches_pure,
    allowOnly, List.all_nil, reaches_ensure, reaches_startOffset, hr, true_and]
  refine (takes_bindingPattern_name plain hc s1 h1).imp ?_
  rintro p s2 ⟨h2, hp⟩
  have types2 : s2.dialect.types = false := by rw [h2.dialect]; rfl
  obtain ⟨m, mem, lexeme⟩ := ends.lexeme h2
  have equals : s2.token.isMark "=" = false := by
    apply isMark_of_ne
    rw [lexeme]
    simp only [ne_eq, Lexeme.mark.injEq]
    rintro rfl
    revert mem
    decide
  simp only [reaches_dialect, types2, Bool.false_eq_true, ↓reduceIte, reaches_bind, reaches_pure,
    reaches_eatMark, equals, reaches_spanFrom]
  exact ⟨h2, by simp [Param.detach, madeParam, hp, detachDecorators, detachType?]⟩

theorem detachParams_eq {names : List String} {ps : List Param}
    (h : List.Forall₂ (fun n p => p.detach = madeParam n) names ps) :
    detachParams ps = names.map madeParam := by
  induction h with
  | nil => rfl
  | cons here _ ih => rw [detachParams, here, ih, List.map_cons]

theorem takes_parameters {names : List String} {ofConstructor : Bool} {r' : Rules}
    (plain : ∀ n ∈ names, IsPlainName n) (hr : r.pattern = bindingPattern r')
    (hc : Surroundings.IsOrdinary c) :
    Takes (parameters r ofConstructor) c
      (.mark "(" :: (commaJoined (names.map fun n => [.word n false]) ++ .mark ")" :: tail)) tail
      (fun ps => ps.1 = [] ∧ detachParams ps.2 = names.map madeParam) := by
  intro s h
  have types : s.next.dialect.types = false := by rw [h.next.dialect]; rfl
  have items (c : Surroundings) (hc : Surroundings.IsOrdinary c) :
      TakesItems (parameter r ofConstructor) c ")" (fun n => [.word n false])
        (fun n p => p.detach = madeParam n) names :=
    ⟨fun n _ => ⟨_, _, rfl, by simp⟩,
      fun n hn tail ends => takes_parameter (plain n hn) hr hc.isYield ends⟩
  unfold parameters receiver bracketed
  simp only [reaches_bind, reaches_expectMark, isMark_of_eq h.cons, reaches_within,
    reaches_dialect, types, Bool.not_false, Bool.true_or, ↓reduceIte, reaches_pure, reaches_atWord,
    true_and]
  refine (takes_commaItems (by decide) (items _ (bracketed_isOrdinary hc)) s.next h.next).imp ?_
  rintro ps s1 ⟨h1, all⟩
  exact ⟨isMark_of_eq h1.cons, h1.next, detachParams_eq all⟩

/-- The body of a function in braces. -/
theorem takes_functionBlock {items : List (List Lexeme × Stmt)}
    (each : ∀ a ∈ items, TakesStatement r (bodySurroundings c) a) :
    Takes (functionBlock r) c (blockLexemes items ++ tail) tail
      (·.detach = .block .detached [] (items.map (·.2))) := by
  intro s h
  rw [blockLexemes, List.cons_append, List.append_assoc, List.singleton_append] at h
  unfold functionBlock braceBody
  simp only [reaches_within, reaches_bind, reaches_startOffset, reaches_expectMark,
    isMark_of_eq h.cons, true_and]
  refine (takes_bodyUpTo each s.next h.next).imp ?_
  rintro ⟨directives, body⟩ s1 ⟨h1, rfl, hbody⟩
  simp only [isMark_of_eq h1.cons, reaches_spanFrom, reaches_pure, true_and]
  exact ⟨h1.next, by simp [Body.detach, hbody]⟩

theorem function_isOrdinary (hc : Surroundings.IsOrdinary c) :
    Surroundings.IsOrdinary (functionSurroundings false false c) := ⟨rfl, hc.isDecorator⟩

/-- The surroundings of the statements of a function that is neither asynchronous nor a
generator. -/
def innerSurroundings (c : Surroundings) : Surroundings :=
  bodySurroundings (functionSurroundings false false c)

theorem inner_isOrdinary (hc : Surroundings.IsOrdinary c) :
    Surroundings.IsOrdinary (innerSurroundings c) := ⟨rfl, hc.isDecorator⟩

theorem ambient_isOrdinary (hc : Surroundings.IsOrdinary c) (isAmbient : Bool) :
    Surroundings.IsOrdinary { c with isAmbient } := ⟨hc.isYield, hc.isDecorator⟩

/-- A function from its parameters on. -/
theorem takes_functionRest {start : Nat} {role : FunctionRole} {names : List String}
    {items : List (List Lexeme × Stmt)} {r' : Rules} (plain : ∀ n ∈ names, IsPlainName n)
    (hr : r.pattern = bindingPattern r') (hc : Surroundings.IsOrdinary c)
    (each : ∀ a ∈ items, TakesStatement r (innerSurroundings c) a) :
    Takes (functionRest r start none false false false role) c
      (functionLexemes names items ++ tail) tail
      (·.detach = madeFunction names (items.map (·.2))) := by
  intro s h
  rw [functionLexemes, List.cons_append, List.append_assoc, List.cons_append] at h
  have types : s.dialect.types = false := by rw [h.dialect]; rfl
  unfold functionRest typeParameters returnTypeAnnotation eatTypeColon
  simp only [reaches_within, reaches_bind, reaches_dialect, reaches_atMark, types, Bool.not_false,
    Bool.true_or, ↓reduceIte, reaches_pure]
  refine (takes_parameters plain hr (function_isOrdinary hc) s h).imp ?_
  rintro ⟨receiver, params⟩ s1 ⟨h1, rfl, hparams⟩
  have types1 : s1.dialect.types = false := by rw [h1.dialect]; rfl
  have brace : s1.token.isMark "\x7b" = true := isMark_of_eq (by rw [h1.lexeme]; rfl)
  simp only [types1, Bool.false_eq_true, ↓reduceIte, brace, reaches_bind, reaches_pure]
  refine (takes_functionBlock each s1 h1).imp ?_
  rintro body s2 ⟨h2, hbody⟩
  simp only [reaches_spanFrom]
  exact ⟨h2, by simp [Func.detach, madeFunction, hparams, hbody, detachTypes, detachParams,
    detachType?]⟩

/-! ### Members -/

/-- Whether some lexemes are taken as the key of a made-up member. -/
inductive MemberKeyForms : List Lexeme → Key → Prop where
  | word (n : String) : MemberKeyForms [.word n false] (.name .detached n)
  | computed {ls : List Lexeme} {e : Expr} (forms : Forms .sum ls e) :
      MemberKeyForms (.mark "[" :: (ls ++ [.mark "]"])) (.computed e)

theorem takes_memberKey {words : List String} {depth : Nat} {k : Key}
    (key : MemberKeyForms ls k) (hdepth : ls.length ≤ depth) (hc : Surroundings.IsOrdinary c) :
    Takes (memberKey (rules (depth + 1)) words) c (ls ++ tail) tail (·.detach = k) := by
  intro s h
  unfold memberKey
  cases key with
  | word n =>
      have lexeme : s.token.lexeme = .word n false := h.cons
      simp only [reaches_bind, reaches_peek, lexeme]
      exact takes_propertyKey (.word n) s h
  | @computed ls e forms =>
      rw [List.cons_append, List.append_assoc, List.singleton_append] at h
      have close : BeginsWith ["]"] (.mark "]" :: tail) := ⟨"]", by decide, rfl⟩
      simp only [List.length_cons, List.length_append] at hdepth
      unfold propertyKey bracketed
      simp only [reaches_bind, reaches_peek, h.cons, reaches_expectMark, isMark_of_eq h.cons,
        reaches_within, true_and]
      refine (forms.takes (by omega) (bracketed_isOrdinary hc) (close.imp (by decide)) s.next
        h.next).imp ?_
      rintro e' s1 ⟨h1, he⟩
      simp only [isMark_of_eq h1.cons, reaches_pure, true_and]
      exact ⟨h1.next, by simp [Key.detach, he]⟩

theorem MemberKeyForms.startsKey {k : Key} (key : MemberKeyForms ls k)
    (h : Before (ls ++ tail) s) : Parser.startsKey s.token = true := by
  cases key with
  | word n => simp [Parser.startsKey, h.lexeme]
  | computed forms => simp [Parser.startsKey, h.lexeme]

theorem Key.isNamed_detach (k : Key) (wanted : String) : k.detach.isNamed wanted = k.isNamed wanted := by
  cases k <;> rfl

/-- A getter as it is made up. -/
def madeGetter (isStatic : Bool) (key : Key) (body : List Stmt) : Member :=
  .method ⟨.detached, [], .getter, key, isStatic, false, none, false, madeFunction [] body⟩

/-- A constructor as it is made up. -/
def madeConstructor (params : List String) (body : List Stmt) : Member :=
  .method ⟨.detached, [], .constructor, .name .detached "constructor", false, false, none, false,
    madeFunction params body⟩

/-- What the checks behind a function look at, found out from the function without its places. -/
theorem madeFunction_checks {fn : Func} {params : List String} {body : List Stmt}
    (h : fn.detach = madeFunction params body) :
    fn.params.length = params.length ∧ fn.receiver = [] ∧ fn.typeParams = [] ∧
      fn.isAsync = false ∧ lacksBody fn = false := by
  obtain ⟨_, _, _, isAsync, _, _, _, typeParams, receiver, ps, _, block⟩ := fn
  simp only [Func.detach, madeFunction, Func.mk.injEq] at h
  obtain ⟨-, -, -, rfl, -, -, -, htypes, hreceiver, hparams, -, hblock⟩ := h
  refine ⟨?_, ?_, ?_, rfl, ?_⟩
  · have count : ∀ qs : List Param, (detachParams qs).length = qs.length := by
      intro qs
      induction qs with
      | nil => rfl
      | cons q qs ih => simp [detachParams, ih]
    rw [← count ps, hparams, List.length_map]
  · cases receiver with
    | nil => rfl
    | cons p ps => cases hreceiver
  · cases typeParams with
    | nil => rfl
    | cons t ts => cases htypes
  · cases block with
    | missing => cases hblock
    | value e => cases hblock
    | block _ _ _ => rfl

theorem takes_methodFrom_getter {start : Nat} {words : List String} {k : Key} {k' : Key}
    {items : List (List Lexeme × Stmt)} {r' : Rules} (hr : r.pattern = bindingPattern r')
    (hc : Surroundings.IsOrdinary c) (hk : k'.detach = k) (words' : words = [] ∨ words = ["static"])
    (each : ∀ a ∈ items, TakesStatement r (innerSurroundings c) a) :
    Takes (methodFrom r start [] words .getter false k' false) c
      (functionLexemes [] items ++ tail) tail
      (·.detach = madeGetter (words.contains "static") k (items.map (·.2))) := by
  have notAsync : words.contains "async" = false := by rcases words' with rfl | rfl <;> rfl
  have notAbstract : words.contains "abstract" = false := by rcases words' with rfl | rfl <;> rfl
  have noAccess : words.findSome? accessOf? = none := by rcases words' with rfl | rfl <;> rfl
  intro s h
  unfold methodFrom
  simp only [reaches_bind, reaches_startOffset, notAsync, notAbstract, noAccess]
  refine (takes_functionRest (by simp) hr hc each s h).imp ?_
  rintro fn s1 ⟨h1, hfn⟩
  obtain ⟨count, -, -, -, hasBody⟩ := madeFunction_checks hfn
  have noParams : fn.params = [] := List.length_eq_zero_iff.mp count
  simp only [Func.fitsAccessor, noParams, List.all_nil, hasBody, Bool.not_false, Bool.or_true,
    List.isEmpty_nil, reaches_ensure, reaches_spanFrom, reaches_pure, true_and]
  exact ⟨h1, by simp [Member.detach, Method.detach, madeGetter, hk, hfn, detachDecorators]⟩

/-- The word that introduces a getter. -/
theorem takes_classMemberFrom_getter {start : Nat} {words : List String} {depth : Nat} {k : Key}
    {items : List (List Lexeme × Stmt)} (key : MemberKeyForms ls k) (hdepth : ls.length ≤ depth)
    (hc : Surroundings.IsOrdinary c)
    (words' : (words = [] ∧ k.isConstructorName = false) ∨
      (words = ["static"] ∧ k.isNamed "prototype" = false))
    (each : ∀ a ∈ items, TakesStatement (rules (depth + 1)) (innerSurroundings c) a) :
    Takes (classMemberFrom (rules (depth + 1)) start [] words) c
      (.word "get" false :: (ls ++ (functionLexemes [] items ++ tail))) tail
      (·.detach = madeGetter (words.contains "static") k (items.map (·.2))) := by
  intro s h
  have get : s.token.isWord "get" = true := by simp [Token.isWord, h.cons]
  have accessor : s.token.isWordOf ["get", "set"] = true := by simp [Token.isWordOf, h.cons]
  have escaped : s.token.isEscaped = false := by simp [Token.isEscaped, h.cons]
  have starts := key.startsKey h.next
  unfold classMemberFrom accessorFrom ensureNoPrototype
  simp only [reaches_bind, reaches_peek, reaches_nextIs, get, accessor, starts, Bool.and_self,
    ↓reduceIte, reaches_advance, escaped, true_and]
  refine (takes_memberKey key hdepth hc s.next h.next).imp ?_
  rintro k' s1 ⟨h1, hk⟩
  have named (wanted : String) : k'.isNamed wanted = k.isNamed wanted := by
    rw [← hk, Key.isNamed_detach]
  have noPrototype : (words.contains "static" && k'.isNamed "prototype") = false := by
    rw [named]
    rcases words' with ⟨rfl, _⟩ | ⟨rfl, other⟩
    · rfl
    · simp [other]
  have noConstructor : (words.contains "static" || !k'.isConstructorName) = true := by
    rw [Key.isConstructorName, named]
    rcases words' with ⟨rfl, other⟩ | ⟨rfl, _⟩
    · simpa [Key.isConstructorName] using other
    · rfl
  simp only [reaches_read, reaches_ensure, noPrototype, noConstructor, Bool.not_false, Bool.or_true,
    true_and]
  exact takes_methodFrom_getter (pattern_rules depth) hc hk (words'.imp (·.1) (·.1)) each s1 h1

/-- Whether some lexemes, in front of any others, are taken as a member that begins with a word. -/
structure TakesMember (r : Rules) (c : Surroundings) (a : List Lexeme × Member) : Prop where
  word : ∃ n more, a.1 = .word n false :: more
  takes : ∀ tail, Takes (classMember r) c (a.1 ++ tail) tail (·.detach = a.2)

/-- No modifier stands in front of a word that is none. -/
theorem takes_modifiers_none {n : String} (notModifier : modifierWords.contains n = false) :
    Takes modifiers c (.word n false :: ls) (.word n false :: ls) (· = []) := by
  intro s h
  have modifier : s.token.isWordOf modifierWords = false := by
    simpa [Token.isWordOf, h.cons] using notModifier
  unfold modifiers modifiersFrom
  simp only [reaches_bind, reaches_bound, reaches_peek, reaches_nextIs, modifier, Bool.false_and,
    Bool.false_eq_true, ↓reduceIte, reaches_pure, List.reverse_nil, reaches_ensure]
  exact ⟨by decide, h, trivial⟩

/-- The modifier of a static member. -/
theorem takes_modifiers_static {n : String} (notModifier : modifierWords.contains n = false) :
    Takes modifiers c (.word "static" false :: .word n false :: ls) (.word n false :: ls)
      (· = ["static"]) := by
  intro s h
  have static : s.token.isWord "static" = true := by simp [Token.isWord, h.cons]
  have first : s.token.isWordOf modifierWords = true := by
    simp [Token.isWordOf, h.cons, modifierWords]
  have follows : followsModifier s.next.token = true := by
    simp [followsModifier, startsKey, h.next.cons]
  have brace : s.next.token.isMark "\x7b" = false := by simp [Token.isMark, h.next.cons]
  have escaped : s.token.isEscaped = false := by simp [Token.isEscaped, h.cons]
  have second : s.next.token.isWordOf modifierWords = false := by
    simpa [Token.isWordOf, h.next.cons] using notModifier
  have bound := h.bound
  simp only [List.length_cons] at bound
  obtain ⟨fuel, hfuel⟩ := Nat.exists_eq_add_one.mpr (show 0 < s.fuel by omega)
  unfold modifiers
  rw [reaches_bind, reaches_bound, hfuel]
  unfold modifiersFrom modifiersFrom takeWord take
  simp only [reaches_bind, reaches_peek, reaches_nextIs, first, static, follows, brace,
    List.contains_nil, Bool.and_false, Bool.not_false, Bool.true_or, Bool.and_self, ↓reduceIte,
    reaches_advance, escaped, h.cons, reaches_pure, second, Bool.false_and, Bool.false_eq_true,
    reaches_ensure, true_and]
  exact ⟨by decide, h.next, rfl⟩

theorem StatementForms.takesStatement {a : List Lexeme × Stmt} (h : StatementForms a.1 a.2)
    {depth : Nat} (hdepth : a.1.length ≤ depth) (hc : Surroundings.IsOrdinary c) :
    TakesStatement (rules (depth + 2)) (innerSurroundings c) a := by
  refine ⟨h.word, fun tail => ?_⟩
  rw [statement_rules]
  exact h.takes depth hdepth _ (inner_isOrdinary hc) rfl rfl tail

/-- A getter, as lexemes. -/
def getterLexemes (isStatic : Bool) (key : List Lexeme) (items : List (List Lexeme × Stmt)) :
    List Lexeme :=
  (if isStatic then [.word "static" false] else []) ++
    .word "get" false :: (key ++ functionLexemes [] items)

/-- Whether some lexemes form a member of a class. -/
inductive MemberForms : List Lexeme → Member → Prop where
  | getter {isStatic : Bool} {ls : List Lexeme} {k : Key} (key : MemberKeyForms ls k)
      (allowed : if isStatic then k.isNamed "prototype" = false else k.isConstructorName = false)
      (items : List (List Lexeme × Stmt)) (each : ∀ a ∈ items, StatementForms a.1 a.2) :
      MemberForms (getterLexemes isStatic ls items)
        (madeGetter isStatic k (items.map (·.2)))
  | constructor (params : List String) (plain : ∀ n ∈ params, IsPlainName n)
      (items : List (List Lexeme × Stmt)) (each : ∀ a ∈ items, StatementForms a.1 a.2) :
      MemberForms (.word "constructor" false :: functionLexemes params items)
        (madeConstructor params (items.map (·.2)))

theorem length_le_functionLexemes {params : List String} {items : List (List Lexeme × Stmt)}
    {a : List Lexeme × Stmt} (mem : a ∈ items) :
    a.1.length ≤ (functionLexemes params items).length := by
  have := length_le_blockLexemes mem
  simp only [functionLexemes, List.length_cons, List.length_append]
  omega

/-- The part of a member behind its modifiers. -/
theorem takes_classMember {n : String} {words : List String} {post : Member → Prop}
    (notStatic : n ≠ "static") (noDecorators : ∃ m more, ls = .word m false :: more)
    (hc : Surroundings.IsOrdinary c)
    (modifiers' : Takes modifiers c ls (.word n false :: mid) (· = words))
    (member : ∀ c start, Surroundings.IsOrdinary c →
      Takes (classMemberFrom r start [] words) c (.word n false :: mid) rest post) :
    Takes (classMember r) c ls rest post := by
  obtain ⟨m, more, rfl⟩ := noDecorators
  intro s h
  unfold classMember
  simp only [reaches_bind, reaches_startOffset]
  refine (takes_decorators_none s h).imp ?_
  rintro _ s1 ⟨h1, rfl⟩
  refine (modifiers' s1 h1).imp ?_
  rintro _ s2 ⟨h2, rfl⟩
  have static : s2.token.isWord "static" = false := by simpa [Token.isWord, h2.cons] using notStatic
  simp only [reaches_atWord, reaches_nextIs, static, Bool.false_and, Bool.false_eq_true, ↓reduceIte,
    reaches_within]
  exact member _ _ (ambient_isOrdinary hc _) s2 h2

theorem MemberForms.word {m : Member} (h : MemberForms ls m) :
    ∃ n more, ls = .word n false :: more := by
  cases h with
  | @getter isStatic ls k key allowed items each =>
      cases isStatic
      · exact ⟨_, _, rfl⟩
      · exact ⟨_, _, rfl⟩
  | constructor => exact ⟨_, _, rfl⟩

/-- A member that is a constructor. -/
theorem takes_classMemberFrom_constructor {start depth : Nat} {params : List String}
    {items : List (List Lexeme × Stmt)} (plain : ∀ n ∈ params, IsPlainName n)
    (hc : Surroundings.IsOrdinary c)
    (each : ∀ a ∈ items, TakesStatement (rules (depth + 1)) (innerSurroundings c) a) :
    Takes (classMemberFrom (rules (depth + 1)) start [] []) c
      (.word "constructor" false :: (functionLexemes params items ++ tail)) tail
      (·.detach = madeConstructor params (items.map (·.2))) := by
  intro s h
  have types : s.dialect.types = false := by rw [h.dialect]; rfl
  have accessor : s.token.isWordOf ["get", "set"] = false := by simp [Token.isWordOf, h.cons]
  have escaped : s.token.isEscaped = false := by simp [Token.isEscaped, h.cons]
  unfold classMemberFrom atIndexSignature
  simp only [reaches_bind, reaches_peek, reaches_nextIs, accessor, Bool.false_and,
    Bool.false_eq_true, ↓reduceIte, reaches_dialect, types]
  refine reaches_ahead fun _ => ?_
  unfold constructorKey? constructorFrom
  simp only [Bool.false_eq_true, ↓reduceIte, List.contains_nil, reaches_bind, reaches_peek, h.cons, reaches_advance, escaped, reaches_pure, reaches_startOffset, true_and]
  refine (takes_functionRest plain (pattern_rules depth) hc each s.next h.next).imp ?_
  rintro fn s1 ⟨h1, hfn⟩
  obtain ⟨-, noReceiver, noTypes, notAsync, -⟩ := madeFunction_checks hfn
  simp only [noReceiver, noTypes, notAsync, List.isEmpty_nil, Bool.not_false, Bool.and_self,
    reaches_ensure, reaches_spanFrom, List.findSome?_nil, true_and]
  exact ⟨h1, by simp [Member.detach, Method.detach, madeConstructor, hfn, detachDecorators,
    Key.detach]⟩

/-- Whatever the grammar derives is read as it says, by rules that nest deeply enough. -/
theorem MemberForms.takes {m : Member} (h : MemberForms ls m) {depth : Nat}
    (hdepth : ls.length ≤ depth) (hc : Surroundings.IsOrdinary c) :
    TakesMember (rules (depth + 2)) c (ls, m) := by
  refine ⟨h.word, fun tail => ?_⟩
  cases h with
  | @getter isStatic ls k key allowed items each =>
      have body (c : Surroundings) (hc : Surroundings.IsOrdinary c) :
          ∀ a ∈ items, TakesStatement (rules (depth + 2)) (innerSurroundings c) a := by
        intro a ha
        have short := @length_le_functionLexemes [] _ _ ha
        simp only [getterLexemes, List.length_append, List.length_cons] at hdepth
        exact (each a ha).takesStatement (by omega) hc
      have short : ls.length ≤ depth + 1 := by
        simp only [getterLexemes, List.length_append, List.length_cons] at hdepth
        omega
      cases isStatic with
      | false =>
          simp only [getterLexemes, Bool.false_eq_true, ↓reduceIte, List.nil_append,
            List.cons_append, List.append_assoc]
          refine takes_classMember (by decide) ⟨_, _, rfl⟩ hc (takes_modifiers_none (by decide))
            fun c start hc => ?_
          exact takes_classMemberFrom_getter key short hc (.inl ⟨rfl, allowed⟩) (body c hc)
      | true =>
          simp only [getterLexemes, ↓reduceIte, List.cons_append, List.nil_append,
            List.append_assoc]
          refine takes_classMember (by decide) ⟨_, _, rfl⟩ hc (takes_modifiers_static (by decide))
            fun c start hc => ?_
          exact takes_classMemberFrom_getter key short hc (.inr ⟨rfl, allowed⟩) (body c hc)
  | constructor params plain items each =>
      simp only [List.length_cons] at hdepth
      rw [List.cons_append]
      refine takes_classMember (by decide) ⟨_, _, rfl⟩ hc (takes_modifiers_none (by decide))
        fun c start hc => ?_
      refine takes_classMemberFrom_constructor plain hc fun a ha => ?_
      have short := @length_le_functionLexemes params _ _ ha
      exact (each a ha).takesStatement (by omega) hc

/-! ### Class bodies -/

/-- One member of a class body, with the semicolons in front of it. -/
def bodyMember (r : Rules) : Parser (Option Member) := do
  let _ ← Parser.collect do
    if ← eatMark ";" then return some () else return none
  if ← atMark "\x7d" then return none
  return some (← classMember r)

theorem classBody_eq (r : Rules) : classBody r = do
    expectMark "\x7b"
    let members ← within (fun c => { c with arrowBeforeColon := false, noChoiceType := false })
      (Parser.collect (bodyMember r))
    expectMark "\x7d"
    return members := rfl

theorem body_isOrdinary (hc : Surroundings.IsOrdinary c) :
    Surroundings.IsOrdinary { c with arrowBeforeColon := false, noChoiceType := false } :=
  ⟨hc.isYield, hc.isDecorator⟩

/-- Members have no semicolons in front of them. -/
theorem takes_semicolons_none (h : ls.head? ≠ some (.mark ";")) :
    Takes (Parser.collect do if ← eatMark ";" then return some () else return none) c ls ls
      (· = []) := by
  refine takes_collect_none fun s before => ?_
  have sign : s.token.isMark ";" = false := by
    apply isMark_of_ne
    rw [before.lexeme, List.headD_eq_head?_getD]
    cases head : ls.head? with
    | none => simp
    | some l => simpa [head] using h
  simp only [reaches_bind, reaches_eatMark, sign, Bool.false_eq_true, ↓reduceIte, reaches_pure]
  exact ⟨before, trivial⟩

theorem takesSteps_bodyMember {items : List (List Lexeme × Member)}
    (each : ∀ a ∈ items, TakesMember r c a) :
    (∀ a ∈ items, ∀ tail, Takes (bodyMember r) c (a.1 ++ tail) tail
      fun o => ∃ m : Member, o = some m ∧ m.detach = a.2) ∧
    Takes (bodyMember r) c (.mark "\x7d" :: rest) (.mark "\x7d" :: rest) (· = none) := by
  constructor
  · intro a ha tail s h
    obtain ⟨n, more, eq⟩ := (each a ha).word
    have head : (a.1 ++ tail).head? ≠ some (.mark ";") := by simp [eq]
    unfold bodyMember
    rw [reaches_bind]
    refine (takes_semicolons_none head s h).imp ?_
    rintro _ s1 ⟨h1, rfl⟩
    have close : s1.token.isMark "\x7d" = false := by simp [Token.isMark, h1.lexeme, eq]
    simp only [reaches_bind, reaches_atMark, close, Bool.false_eq_true, ↓reduceIte, reaches_pure]
    refine ((each a ha).takes tail s1 h1).imp ?_
    rintro m s2 ⟨h2, hm⟩
    exact ⟨h2, m, rfl, hm⟩
  · intro s h
    unfold bodyMember
    rw [reaches_bind]
    refine (takes_semicolons_none (by simp) s h).imp ?_
    rintro _ s1 ⟨h1, rfl⟩
    simp only [reaches_bind, reaches_atMark, isMark_of_eq h1.cons, ↓reduceIte, reaches_pure]
    exact ⟨h1, trivial⟩

theorem detachMembers_eq {items : List (List Lexeme × Member)} {ms : List Member}
    (h : List.Forall₂ (fun a m => m.detach = a.2) items ms) :
    detachMembers ms = items.map (·.2) := by
  induction h with
  | nil => rfl
  | cons here _ ih => rw [detachMembers, here, ih, List.map_cons]

/-- The members of a class, one after the other. -/
theorem takes_classBody_members {items : List (List Lexeme × Member)}
    (hc : Surroundings.IsOrdinary c)
    (each : ∀ c, Surroundings.IsOrdinary c → ∀ a ∈ items, TakesMember r c a) :
    Takes (classBody r) c (.mark "\x7b" :: (items.flatMap (·.1) ++ .mark "\x7d" :: tail)) tail
      (detachMembers · = items.map (·.2)) := by
  have steps := @takesSteps_bodyMember _ r tail items (each _ (body_isOrdinary hc))
  have nonempty : ∀ a ∈ items, a.1 ≠ [] := by
    intro a ha
    obtain ⟨n, more, eq⟩ := (each _ hc a ha).word
    simp [eq]
  intro s h
  rw [classBody_eq]
  simp only [reaches_bind, reaches_expectMark, isMark_of_eq h.cons, reaches_within, true_and]
  refine (TakesSteps.collect ⟨steps.1, steps.2⟩ nonempty s.next h.next).imp ?_
  rintro ms s1 ⟨h1, all⟩
  simp only [isMark_of_eq h1.cons, reaches_pure, true_and]
  exact ⟨h1.next, detachMembers_eq all⟩

/-! ### Refused members -/

theorem not_reaches_repeatFrom {step : Parser (Option α)} {toks : ι → List Lexeme}
    {items : List ι}
    (each : ∀ x ∈ items, ∀ tail, Takes step c (toks x ++ tail) tail fun o => ∃ a, o = some a)
    (refused : ∀ s Q, Before rest s → ¬ Reaches step c s Q) {fuel : Nat} {acc : List α}
    {Q : List α → Reading → Prop} (h : Before (items.flatMap toks ++ rest) s) :
    ¬ Reaches (Parser.repeatFrom step fuel acc) c s Q := by
  induction items generalizing fuel acc s with
  | nil =>
      cases fuel with
      | zero => simp [Parser.repeatFrom, reaches_failure]
      | succ fuel =>
          rw [Parser.repeatFrom, reaches_bind]
          exact refused s _ h
  | cons x items ih =>
      cases fuel with
      | zero => simp [Parser.repeatFrom, reaches_failure]
      | succ fuel =>
          rw [List.flatMap_cons, List.append_assoc] at h
          rw [Parser.repeatFrom, reaches_bind]
          intro reached
          obtain ⟨_, s1, _, ⟨goesOn, h1, a, rfl⟩⟩ := reached.both (each x (.head _) _ s h)
          exact ih (fun y hy => each y (.tail x hy)) h1 goesOn

/-- No class has a getter that is named like its constructor. -/
theorem not_reaches_classMember_getter {Q : Member → Reading → Prop}
    (h : Before (.word "get" false :: .word "constructor" false :: ls) s) :
    ¬ Reaches (classMember r) c s Q := by
  intro reached
  unfold classMember at reached
  simp only [reaches_bind, reaches_startOffset] at reached
  obtain ⟨_, s1, _, reached, h1, rfl⟩ := reached.both (takes_decorators_none s h)
  obtain ⟨_, s2, _, reached, h2, rfl⟩ := reached.both (takes_modifiers_none (by decide) s1 h1)
  have static : s2.token.isWord "static" = false := by simp [Token.isWord, h2.cons]
  have accessor : s2.token.isWordOf ["get", "set"] = true := by simp [Token.isWordOf, h2.cons]
  have starts : startsKey s2.next.token = true := by simp [startsKey, h2.next.cons]
  unfold classMemberFrom accessorFrom ensureNoPrototype memberKey propertyKey at reached
  simp [reaches_bind, reaches_atWord, reaches_nextIs, static, accessor, starts, reaches_within,
    reaches_peek, reaches_advance, h2.next.cons, reaches_skip, reaches_map, reaches_read,
    reaches_ensure, Key.isConstructorName, Key.isNamed] at reached

/-- Members in front of such a getter do not help. -/
theorem not_reaches_classBody {items : List (List Lexeme × Member)}
    {Q : List Member → Reading → Prop} (hc : Surroundings.IsOrdinary c)
    (each : ∀ c, Surroundings.IsOrdinary c → ∀ a ∈ items, TakesMember r c a)
    (h : Before (.mark "\x7b" :: (items.flatMap (·.1) ++
      .word "get" false :: .word "constructor" false :: ls)) s) :
    ¬ Reaches (classBody r) c s Q := by
  have refused (c : Surroundings) (s : Reading) (Q : Option Member → Reading → Prop)
      (h : Before (.word "get" false :: .word "constructor" false :: ls) s) :
      ¬ Reaches (bodyMember r) c s Q := by
    unfold bodyMember
    rw [reaches_bind]
    intro reached
    obtain ⟨_, s1, _, reached, h1, rfl⟩ := reached.both (takes_semicolons_none (by simp) s h)
    have close : s1.token.isMark "\x7d" = false := by simp [Token.isMark, h1.cons]
    simp only [reaches_bind, reaches_atMark, close, Bool.false_eq_true, ↓reduceIte] at reached
    exact not_reaches_classMember_getter h1 reached
  have steps := (@takesSteps_bodyMember _ r ls items (each _ (body_isOrdinary hc))).1
  have steps' : ∀ a ∈ items, ∀ tail, Takes (bodyMember r)
      { c with arrowBeforeColon := false, noChoiceType := false } (a.1 ++ tail) tail
      fun o => ∃ m : Member, o = some m := by
    intro a ha tail
    refine (steps a ha tail).imp ?_
    rintro o ⟨m, eq, -⟩
    exact ⟨m, eq⟩
  rw [classBody_eq]
  simp only [reaches_bind, reaches_expectMark, isMark_of_eq h.cons, reaches_within, true_and]
  unfold Parser.collect
  rw [reaches_bind, reaches_bound]
  exact not_reaches_repeatFrom steps' (refused _) h.next

/-- A class without members that can be read is none. -/
theorem not_reaches_statement_class_body {n : String} {body : List Lexeme}
    {Q : Stmt → Reading → Prop} (names : NamesClass (some n)) (single : c.isSingle = false)
    (hc : Surroundings.IsOrdinary c)
    (h : Before (.word "class" false :: .word n false :: .mark "\x7b" :: body) s)
    (inner : ∀ c, Surroundings.IsOrdinary c → ∀ s Q, Before (.mark "\x7b" :: body) s →
      ¬ Reaches (classBody r) c s Q) : ¬ Reaches (statementRule r) c s Q := by
  refine not_reaches_statementRule_word single h fun Q => ?_
  have hc' := single_isOrdinary hc
  have escaped : s.token.isEscaped = false := by simp [Token.isEscaped, h.cons]
  unfold wordStatement classStatement classDeclaration allowOnly classFrom typeParameters
  simp only [reaches_bind, reaches_startOffset, reaches_ensure, Bool.not_false, List.all_nil,
    List.contains_nil, reaches_expectWord, isWord_of_word h.cons, beq_self_eq_true, escaped,
    true_and]
  intro reached
  obtain ⟨n', s1, _, reached, h1, _⟩ :=
    reached.both (takes_className names hc'.isYield s.next h.next)
  have types : s1.dialect.types = false := by rw [h1.dialect]; rfl
  have extends' : s1.token.isWord "extends" = false := by simp [Token.isWord, h1.cons]
  have implements : s1.token.isWord "implements" = false := by simp [Token.isWord, h1.cons]
  simp only [reaches_dialect, reaches_atMark, types, Bool.not_false, ↓reduceIte, reaches_bind,
    reaches_pure, reaches_eatWord, extends', implements, Bool.true_or, Bool.false_eq_true]
    at reached
  exact inner _ hc' s1 _ h1 reached

end Parser

end ComponentLowering.Syntax

namespace ComponentLowering.Code

open ComponentLowering.Syntax ComponentLowering.Syntax.Parser

/-! ### Members as snippets -/

/-- The class that is made up around members, as lexemes. -/
def aroundLexemes (members : List Lexeme) : List Lexeme :=
  .word "class" false :: .word "_" false :: .mark "\x7b" :: members

theorem spells_classAround {text : String} {lexemes : List Lexeme} (h : SpellsHere text lexemes) :
    Spells (classAround text).toList (aroundLexemes (lexemes ++ [.mark "\x7d"])) := by
  have eq : (classAround text).toList =
      "class".toList ++ ' ' :: ("_".toList ++ ' ' :: '\x7b' :: ' ' ::
        (text.toList ++ [' ', '\x7d'])) := by
    simp [classAround]
  have members := h _ _ (Spells.done.mark (c := '\x7d') (m := "\x7d") (by decide)).space
  rw [eq]
  exact ((((members.space.mark (by decide)).space).word (by decide) endsWord_space).space).word
    (by decide) endsWord_space

theorem beginsPlainly_classAround (text : String) : BeginsPlainly (classAround text).toList := by
  have eq : (classAround text).toList = "class".toList ++ (" _ \x7b ".toList ++ (text.toList ++
      " \x7d".toList)) := by
    simp [classAround]
  rw [eq]
  exact beginsPlainly_word (by decide) _

theorem names_underscore : NamesClass (some "_") := by
  rintro n ⟨⟩
  exact ⟨⟨by decide, by decide⟩, by decide⟩

/-- Members whose tokens are known are read as they are. -/
theorem classMembers_eq {text : String} {items : List (List Lexeme × Member)}
    (spells : SpellsHere text (items.flatMap (·.1)))
    (forms : ∀ a ∈ items, MemberForms a.1 a.2) :
    classMembers text = .ok (items.map (·.2)) := by
  have spelled := spells_classAround spells
  have long := spelled.length_le
  have short : ∀ a ∈ items, a.1.length + 1 ≤ (classAround text).toList.length := by
    intro a ha
    obtain ⟨before, behind, rfl⟩ := List.append_of_mem ha
    simp only [aroundLexemes, List.flatMap_append, List.flatMap_cons, List.length_append,
      List.length_cons] at long
    omega
  have reads : ReadsAll (rules ((classAround text).toList.length + 4))
      (Module.surroundings .plain)
      (aroundLexemes (items.flatMap (·.1) ++ [.mark "\x7d"]))
      [.classDecl { madeClass (some "_") (by decide) with members := items.map (·.2) }] := by
    refine .more (.inl ⟨_, rfl⟩) (by simp [aroundLexemes]) ?_ .done
    rw [statement_rules]
    refine takes_statement_class_body (by decide) names_underscore rfl ⟨rfl, rfl⟩ fun c hc => ?_
    exact takes_classBody_members hc fun c hc a ha =>
      (forms a ha).takes (by have := short a ha; omega) hc
  have read := statements_eq spelled (beginsPlainly_classAround text) (by rfl) reads
  unfold classMembers
  rw [read]
  rfl

/-- Members of which one is refused are not read at all. -/
theorem classMembers_error {text : String} {items : List (List Lexeme × Member)}
    {lexemes : List Lexeme}
    (spells : SpellsHere text (items.flatMap (·.1) ++
      .word "get" false :: .word "constructor" false :: lexemes))
    (forms : ∀ a ∈ items, MemberForms a.1 a.2) :
    ∃ failure, classMembers text = .error failure := by
  have spelled := spells_classAround spells
  have long := spelled.length_le
  have short : ∀ a ∈ items, a.1.length + 1 ≤ (classAround text).toList.length := by
    intro a ha
    obtain ⟨before, behind, rfl⟩ := List.append_of_mem ha
    simp only [aroundLexemes, List.flatMap_append, List.flatMap_cons, List.length_append,
      List.length_cons] at long
    omega
  obtain ⟨failure, read⟩ := statements_error spelled (beginsPlainly_classAround text)
    fun s Q before => by
      rw [statement_rules]
      refine not_reaches_statement_class_body names_underscore rfl ⟨rfl, rfl⟩ before
        fun c hc s Q inner => ?_
      rw [List.append_assoc] at inner
      exact not_reaches_classBody hc
        (fun c hc a ha => (forms a ha).takes (by have := short a ha; omega) hc) inner
  unfold classMembers
  rw [read]
  exact ⟨failure, rfl⟩

end ComponentLowering.Code
