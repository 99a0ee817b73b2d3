/-
# Reading operands

What the rules for names, members and calls do in front of tokens that are known.  Expressions are
compared without their places.
-/
import ComponentLowering.Proofs.Syntax.Running
import ComponentLowering.Syntax.Detached
import ComponentLowering.Syntax.Grammar.Expressions

namespace ComponentLowering.Syntax

namespace Parser

variable {α β : Type} {c : Surroundings} {s : Reading} {r : Rules} {l : Lexeme}
  {ls mid rest : List Lexeme} {post : α → Prop}

/-! ### Stretches of tokens -/

/-- Whether a parser, run in front of some lexemes, comes to stand in front of others with a value
of a certain kind. -/
def Takes (p : Parser α) (c : Surroundings) (ls rest : List Lexeme) (post : α → Prop) : Prop :=
  ∀ s, Before ls s → Reaches p c s fun a s' => Before rest s' ∧ post a

theorem Takes.bind {p : Parser α} {f : α → Parser β} {post' : β → Prop}
    (first : Takes p c ls mid post) (then' : ∀ a, post a → Takes (f a) c mid rest post') :
    Takes (p >>= f) c ls rest post' := by
  intro s h
  rw [reaches_bind]
  refine (first s h).imp ?_
  rintro a s' ⟨here, ha⟩
  exact then' a ha s' here

theorem Takes.imp {p : Parser α} {post' : α → Prop} (h : Takes p c ls rest post)
    (imp : ∀ a, post a → post' a) : Takes p c ls rest post' := by
  intro s before
  refine (h s before).imp ?_
  rintro a s' ⟨here, ha⟩
  exact ⟨here, imp a ha⟩

/-- Surroundings in which neither a generator nor a decorator is being read. -/
structure Surroundings.IsOrdinary (c : Surroundings) : Prop where
  isYield : c.isYield = false
  isDecorator : c.isDecorator = false

/-! ### Names -/

/-- Whether a word is a name wherever no generator is being read. -/
structure IsPlainName (n : String) : Prop where
  notReserved : reservedWords.contains n = false
  notAwait : n ≠ "await"

theorem reaches_name {n : String} (plain : IsPlainName n) (hc : c.isYield = false)
    (h : Before (.word n false :: ls) s) {Q : Ident → Reading → Prop} :
    Reaches name c s Q ↔ Q ⟨s.token.span, n⟩ s.next := by
  have word : (n == "await") = false := by simpa using plain.notAwait
  simp only [name, reaches_bind, reaches_peek, h.cons, reaches_read, plain.notReserved, word, hc,
    Bool.false_and, Bool.and_false, Bool.or_false, Bool.false_eq_true, if_false, reaches_skip,
    reaches_pure]

theorem reaches_anyWord {n : String} (h : Before (.word n false :: ls) s)
    {Q : Ident → Reading → Prop} :
    Reaches anyWord c s Q ↔ Q ⟨s.token.span, n⟩ s.next := by
  simp only [anyWord, reaches_bind, reaches_peek, h.cons, reaches_skip, reaches_pure]

theorem beq_reserved {n : String} (h : reservedWords.contains n = false) (word : String)
    (reserved : reservedWords.contains word = true) : (n == word) = false := by
  rw [beq_eq_false_iff_ne]
  rintro rfl
  rw [h] at reserved
  contradiction

theorem IsPlainName.beq {n : String} (plain : IsPlainName n) (word : String)
    (reserved : reservedWords.contains word = true) : (n == word) = false :=
  beq_reserved plain.notReserved word reserved

theorem isMark_of_eq {t : Token} {m : String} (h : t.lexeme = .mark m) : t.isMark m = true := by
  simp [Token.isMark, h]

theorem isMark_of_ne {t : Token} {m : String} (h : t.lexeme ≠ .mark m) : t.isMark m = false := by
  unfold Token.isMark
  split
  · rename_i n eq
    rw [beq_eq_false_iff_ne]
    rintro rfl
    exact h eq
  · rfl

theorem isWord_eq_false {t : Token} {word : String}
    (h : ∀ escaped, t.lexeme ≠ .word word escaped) : t.isWord word = false := by
  unfold Token.isWord
  split
  · rename_i n escaped eq
    rw [beq_eq_false_iff_ne]
    rintro rfl
    exact h escaped eq
  · rfl

/-- A name, as long as it is not the word `async` in front of a function. -/
theorem takes_primary_name {n : String} (plain : IsPlainName n) (hc : c.isYield = false)
    (function : ∀ escaped, ls.headD .endOfText ≠ .word "function" escaped) :
    Takes (primary r) c (.word n false :: ls) ls (·.detach = .ident .detached n) := by
  intro s h
  have notFunction : s.next.token.isWord "function" = false := by
    apply isWord_eq_false
    rw [h.next.lexeme]
    exact function
  unfold primary
  simp only [reaches_bind, reaches_startOffset, reaches_peek, h.cons]
  simp (disch := decide) only [plain.beq, Bool.false_eq_true, ↓reduceIte]
  simp only [reaches_bind, reaches_nextIs, notFunction, Bool.false_and, Bool.and_false, Bool.false_eq_true,
    ↓reduceIte, reaches_name plain hc h, reaches_pure]
  exact ⟨h.next, rfl⟩

theorem takes_primary_this :
    Takes (primary r) c (.word "this" false :: ls) ls (·.detach = .this .detached) := by
  intro s h
  unfold primary
  simp only [reaches_bind, reaches_startOffset, reaches_peek, h.cons, beq_self_eq_true, if_true,
    reaches_advance, Token.isEscaped, reaches_pure]
  exact ⟨trivial, h.next, rfl⟩

theorem takes_primary_true :
    Takes (primary r) c (.word "true" false :: ls) ls (·.detach = .bool .detached true) := by
  intro s h
  unfold primary
  simp only [reaches_bind, reaches_startOffset, reaches_peek, h.cons, String.reduceBEq,
    beq_self_eq_true, Bool.false_eq_true, ↓reduceIte, reaches_advance, Token.isEscaped,
    reaches_pure]
  exact ⟨trivial, h.next, rfl⟩

theorem takes_primary_string {v : Text.StringValue} :
    Takes (primary r) c (.string v :: ls) ls (·.detach = .string .detached v) := by
  intro s h
  unfold primary
  simp only [reaches_bind, reaches_startOffset, reaches_peek, h.cons, reaches_advance,
    Token.isEscaped, reaches_pure]
  exact ⟨trivial, h.next, rfl⟩

/-! ### Classes -/

/-- A class without members as it is made up, with or without a name. -/
def madeClass (name : Option String) (named : name.all isBindingName = true) : ClassDef :=
  { span := .detached, decorators := [], declared := false, isAbstract := false
    name := name.map (⟨.detached, ·⟩), typeParams := [], superClass := none, superTypeArgs := []
    interfaces := [], members := []
    named := by rw [Option.all_map]; exact named }

/-- A class without members, as lexemes. -/
def classLexemes (name : Option String) : List Lexeme :=
  .word "class" false :: (name.toList.map (.word · false) ++ [.mark "\x7b", .mark "\x7d"])

/-- The body of a class without members. -/
theorem takes_classBody :
    Takes (classBody r) c (.mark "\x7b" :: .mark "\x7d" :: ls) ls (· = []) := by
  intro s h
  have semicolon : s.next.token.isMark ";" = false := by simp [Token.isMark, h.next.cons]
  unfold classBody collect
  simp only [reaches_bind, reaches_expectMark, isMark_of_eq h.cons, reaches_within, reaches_bound,
    true_and]
  unfold repeatFrom repeatFrom
  simp only [reaches_bind, reaches_bound, reaches_eatMark, semicolon, Bool.false_eq_true,
    ↓reduceIte, reaches_pure, reaches_atMark, isMark_of_eq h.next.cons, List.reverse_nil, true_and]
  exact ⟨h.next.next, trivial⟩

/-- Whether a class may have a name: any but the word that introduces interfaces. -/
def NamesClass (name : Option String) : Prop := ∀ n ∈ name, IsPlainName n ∧ n ≠ "implements"

/-- The name of a class in front of its body. -/
theorem takes_className {name : Option String} (names : NamesClass name) (hc : c.isYield = false) :
    Takes className? c (name.toList.map (.word · false) ++ .mark "\x7b" :: ls)
      (.mark "\x7b" :: ls) (·.map Ident.detach = name.map (⟨.detached, ·⟩)) := by
  intro s h
  unfold className?
  cases name with
  | none =>
      have noName : isNameWord s.token = false := by simp [isNameWord, h.lexeme]
      simp only [reaches_bind, reaches_peek, noName, Bool.false_and, Bool.false_eq_true, ↓reduceIte,
        reaches_pure]
      exact ⟨h, rfl⟩
  | some n =>
      obtain ⟨plain, notImplements⟩ := names n rfl
      rw [Option.toList_some, List.map_cons, List.map_nil, List.singleton_append] at h
      have nameWord : isNameWord s.token = true := by
        simp only [isNameWord, h.cons, plain.notReserved, Bool.not_false]
      have implements : s.token.isWord "implements" = false := by
        simpa [Token.isWord, h.cons] using notImplements
      simp only [reaches_bind, reaches_peek, nameWord, implements, Bool.not_false, Bool.and_self,
        ↓reduceIte, reaches_map, reaches_name plain hc h]
      exact ⟨h.next, rfl⟩

/-- A class without type parameters and parents. -/
theorem takes_classFrom_body {name : Option String} {start : Nat} {body : List Lexeme}
    {members : List Member} (named : name.all isBindingName = true) (names : NamesClass name)
    (hc : c.isYield = false)
    (inner : Takes (classBody r) c (.mark "\x7b" :: body) ls (detachMembers · = members)) :
    Takes (classFrom r start [] false false) c
      (.word "class" false :: (name.toList.map (.word · false) ++ .mark "\x7b" :: body)) ls
      (·.detach = { madeClass name named with members }) := by
  intro s h
  have word : s.token.isWord "class" = true := by simp [Token.isWord, h.cons]
  have escaped : s.token.isEscaped = false := by simp [Token.isEscaped, h.cons]
  unfold classFrom typeParameters
  simp only [reaches_bind, reaches_expectWord, word, escaped, true_and]
  refine (@takes_className c body name names hc s.next h.next).imp ?_
  rintro n s1 ⟨h1, hn⟩
  have types : s1.dialect.types = false := by rw [h1.dialect]; rfl
  have extends' : s1.token.isWord "extends" = false := by simp [Token.isWord, h1.cons]
  have implements : s1.token.isWord "implements" = false := by simp [Token.isWord, h1.cons]
  simp only [reaches_dialect, reaches_atMark, types, Bool.not_false, ↓reduceIte, reaches_bind,
    reaches_pure, reaches_eatWord, extends', implements, Bool.true_or, Bool.false_eq_true]
  refine (inner s1 h1).imp ?_
  rintro read s2 ⟨h2, hmembers⟩
  have named' : (n.all fun n => isBindingName n.name) = true := by
    have := congrArg (Option.all fun n : Ident => isBindingName n.name) hn
    rw [Option.all_map, Option.all_map] at this
    exact this.trans named
  simp only [reaches_spanFrom]
  rw [dif_pos named']
  refine (reaches_pure _).mpr ⟨h2, ?_⟩
  simp [ClassDef.detach, madeClass, hn, hmembers, detachDecorators, detachTypes, detachExpr?]

/-- A class without type parameters, parents and members. -/
theorem takes_classFrom {name : Option String} {start : Nat}
    (named : name.all isBindingName = true) (names : NamesClass name) (hc : c.isYield = false) :
    Takes (classFrom r start [] false false) c (classLexemes name ++ ls) ls
      (·.detach = madeClass name named) := by
  have body : Takes (classBody r) c (.mark "\x7b" :: .mark "\x7d" :: ls) ls (detachMembers · = []) :=
    takes_classBody.imp fun _ none => by rw [none, detachMembers]
  have whole := @takes_classFrom_body c r ls name start _ _ named names hc body
  rw [classLexemes, List.cons_append, List.append_assoc]
  exact whole

theorem takes_primary_class (hc : c.isYield = false) :
    Takes (primary r) c (classLexemes none ++ ls) ls
      (·.detach = .classExpr (madeClass none rfl)) := by
  intro s h
  unfold primary
  simp only [reaches_bind, reaches_startOffset, reaches_peek, h.lexeme, classLexemes,
    List.cons_append, List.headD_cons, String.reduceBEq, Bool.false_eq_true, ↓reduceIte]
  refine (takes_classFrom rfl (by simp [NamesClass]) hc s h).imp ?_
  rintro a s' ⟨behind, ha⟩
  simp only [reaches_pure]
  exact ⟨behind, by simp [Expr.detach, ha]⟩

/-! ### Members and calls -/

/-- Whether some lexemes begin with one of some marks. -/
def BeginsWith (marks : List String) (ls : List Lexeme) : Prop :=
  ∃ m ∈ marks, ls.head? = some (.mark m)

/-- The marks behind an operand that is complete. -/
def operandEnds : List String := [";", ",", ")", "]", "\x7d", "+", "="]

theorem takes_suffixes_end {start fuel : Nat} {e : Expr} {linked : Bool}
    (ends : BeginsWith operandEnds ls) :
    Takes (suffixes r start true (fuel + 1) e linked) c ls ls (· = (e, linked)) := by
  intro s h
  obtain ⟨m, mem, head⟩ := ends
  obtain ⟨more, rfl⟩ : ∃ more, ls = .mark m :: more := by
    cases ls with
    | nil => cases head
    | cons l more => exact ⟨more, by rw [Option.some.inj head]⟩
  unfold suffixes
  simp only [reaches_bind, reaches_peek, reaches_read, reaches_dialect, h.dialect, h.cons]
  simp only [operandEnds, List.mem_cons, List.not_mem_nil, or_false] at mem
  rcases mem with rfl | rfl | rfl | rfl | rfl | rfl | rfl <;>
    exact (reaches_of_ok rfl).mpr ⟨h, rfl⟩

theorem takes_suffixes_member {start fuel : Nat} {e : Expr} {linked : Bool} {n : String}
    {post : Expr × Bool → Prop}
    (more : ∀ span property, Takes (suffixes r start true fuel
      (.member span e ⟨property, n⟩ false) linked) c ls rest post) :
    Takes (suffixes r start true (fuel + 1) e linked) c (.mark "." :: .word n false :: ls) rest
      post := by
  intro s h
  unfold suffixes
  simp only [reaches_bind, reaches_peek, reaches_read, reaches_dialect, h.cons,
    reaches_advance, Token.isEscaped, h.next.cons, reaches_anyWord h.next, reaches_spanFrom]
  exact ⟨trivial, more _ _ _ h.next.next⟩

theorem bracketed_isOrdinary {c : Surroundings} (hc : Surroundings.IsOrdinary c) :
    Surroundings.IsOrdinary
      { c with allowIn := true, arrowBeforeColon := false, noChoiceType := false } :=
  ⟨hc.isYield, hc.isDecorator⟩

theorem undecorated_isOrdinary {c : Surroundings} (hc : Surroundings.IsOrdinary c) :
    Surroundings.IsOrdinary { c with isDecorator := false } := ⟨hc.isYield, rfl⟩

/-! ### Lists -/

/-- Stretches of lexemes with commas between them. -/
def commaJoined : List (List Lexeme) → List Lexeme
  | [] => []
  | first :: more => first ++ more.flatMap (.mark "," :: ·)

/-- Whether a parser takes each of some items, and none begins with the closing mark. -/
structure TakesItems {ι : Type} (item : Parser α) (c : Surroundings) (close : String)
    (toks : ι → List Lexeme) (good : ι → α → Prop) (items : List ι) : Prop where
  opens : ∀ x ∈ items, ∃ l more, toks x = l :: more ∧ l ≠ .mark close
  takes : ∀ x ∈ items, ∀ tail, BeginsWith [",", close] tail →
    Takes item c (toks x ++ tail) tail (good x)

theorem TakesItems.tail {ι : Type} {item : Parser α} {close : String} {toks : ι → List Lexeme}
    {good : ι → α → Prop} {x : ι} {items : List ι}
    (h : TakesItems item c close toks good (x :: items)) :
    TakesItems item c close toks good items :=
  ⟨fun y hy => h.opens y (List.mem_cons_of_mem x hy),
    fun y hy => h.takes y (List.mem_cons_of_mem x hy)⟩

theorem beginsWith_cons {m : String} {marks : List String} (mem : m ∈ marks)
    (ls : List Lexeme) : BeginsWith marks (.mark m :: ls) := ⟨m, mem, rfl⟩

/-- The items that are still to come are added to those that were read. -/
theorem takes_repeatFrom_items {ι : Type} {close : String} (notComma : close ≠ ",")
    {item : Parser α} {toks : ι → List Lexeme} {good : ι → α → Prop} (items : List ι)
    (h : TakesItems item c close toks good items) {fuel : Nat} (hfuel : items.length < fuel)
    (acc : List α) :
    Takes (repeatFrom (do
        if ← atMark close then return none
        let a ← item
        if !(← atMark close) then expectMark ","
        return some a) fuel acc) c
      (commaJoined (items.map toks) ++ .mark close :: rest) (.mark close :: rest)
      fun as => ∃ more, as = acc.reverse ++ more ∧ List.Forall₂ good items more := by
  induction items generalizing fuel acc with
  | nil =>
      obtain ⟨fuel, rfl⟩ := Nat.exists_eq_add_one.mpr hfuel
      intro s before
      have here := isMark_of_eq before.cons
      unfold repeatFrom
      simp only [reaches_bind, reaches_atMark, reaches_ite, here, ↓reduceIte, reaches_pure]
      exact ⟨before, [], by simp, .nil⟩
  | cons x items ih =>
      obtain ⟨fuel, rfl⟩ := Nat.exists_eq_add_one.mpr (Nat.zero_lt_of_lt hfuel)
      obtain ⟨l, toks', eq, notClose⟩ := h.opens x List.mem_cons_self
      intro s before
      have here : s.token.isMark close = false := by
        apply isMark_of_ne
        rw [before.lexeme]
        simpa [commaJoined, eq] using notClose
      rw [List.map_cons, commaJoined, List.append_assoc] at before
      unfold repeatFrom
      simp only [reaches_bind, reaches_atMark, reaches_ite, here, Bool.false_eq_true, ↓reduceIte]
      cases items with
      | nil =>
          refine (h.takes x List.mem_cons_self _ (beginsWith_cons (by simp) rest) s before).imp ?_
          rintro a s' ⟨behind, ha⟩
          have there := isMark_of_eq behind.cons
          simp only [there, Bool.not_true, Bool.false_eq_true, ↓reduceIte, reaches_pure]
          have := ih h.tail (by simpa using hfuel) (a :: acc)
          refine (this s' behind).imp ?_
          rintro as s'' ⟨last, more, eq', all⟩
          exact ⟨last, a :: more, by simpa using eq', .cons ha all⟩
      | cons y items =>
          refine (h.takes x List.mem_cons_self _ (beginsWith_cons (by simp) _) s before).imp ?_
          rintro a s' ⟨behind, ha⟩
          have there : s'.token.isMark close = false := by
            apply isMark_of_ne
            rw [behind.cons]
            simpa using notComma.symm
          have comma := isMark_of_eq behind.cons
          simp only [there, Bool.not_false, ↓reduceIte, reaches_expectMark, comma,
            reaches_pure, true_and]
          have := ih h.tail (by simpa using hfuel) (a :: acc)
          refine (this s'.next behind.next).imp ?_
          rintro as s'' ⟨last, more, eq', all⟩
          exact ⟨last, a :: more, by simpa using eq', .cons ha all⟩

/-- There are at least as many lexemes as items. -/
theorem TakesItems.length_le {ι : Type} {item : Parser α} {close : String}
    {toks : ι → List Lexeme} {good : ι → α → Prop} {items : List ι}
    (h : TakesItems item c close toks good items) :
    items.length ≤ (commaJoined (items.map toks)).length := by
  induction items with
  | nil => simp
  | cons x items ih =>
      obtain ⟨l, more, eq, _⟩ := h.opens x List.mem_cons_self
      have count : ∀ xs : List (List Lexeme), xs.length ≤ (xs.flatMap (Lexeme.mark "," :: ·)).length := by
        intro xs
        induction xs with
        | nil => simp
        | cons a xs ih => simp only [List.flatMap_cons, List.length_append, List.length_cons]; omega
      have := count (items.map toks)
      simp only [List.map_cons, commaJoined, eq, List.length_cons, List.length_append,
        List.length_map] at this ⊢
      omega

/-- Items with commas between them, in front of a closing mark. -/
theorem takes_commaItems {ι : Type} {close : String} (notComma : close ≠ ",")
    {item : Parser α} {toks : ι → List Lexeme} {good : ι → α → Prop} {items : List ι}
    (h : TakesItems item c close toks good items) :
    Takes (commaItems close item) c (commaJoined (items.map toks) ++ .mark close :: rest)
      (.mark close :: rest) (List.Forall₂ good items) := by
  intro s before
  have long := h.length_le
  have bound := before.bound
  simp only [List.length_append] at bound
  unfold commaItems collect
  simp only [reaches_bind, reaches_bound]
  refine (takes_repeatFrom_items notComma items h (by omega) [] s before).imp ?_
  rintro as s' ⟨behind, more, rfl, all⟩
  exact ⟨behind, by simpa using all⟩

theorem map_eq_map_of_forall₂ {ι : Type} {f : α → β} {g : ι → β} {items : List ι} {as : List α}
    (h : List.Forall₂ (fun x a => f a = g x) items as) : as.map f = items.map g := by
  induction h with
  | nil => rfl
  | cons here _ ih => rw [List.map_cons, List.map_cons, here, ih]

end Parser

end ComponentLowering.Syntax
