/-
# Injected code as syntax

The constructor and the getters that lowering writes into a class, as they are read.  The names of
the members that they stand for are arbitrary; only a getter that would be named like the
constructor cannot be read.
-/
import ComponentLowering.Lowering.Injection
import ComponentLowering.Proofs.Syntax.MadeMembers

namespace ComponentLowering.Lowering

open ComponentLowering.Code ComponentLowering.Component ComponentLowering.Syntax
open ComponentLowering.Syntax.Parser ComponentLowering.Text

variable {rest : List Char} {lexemes : List Lexeme}

/-! ### The host and the members of the instance -/

/-- The parameter of a lowered constructor. -/
def hostTree : Expr := .ident .detached hostName

/-- The element of the host. -/
def hostElementTree : Expr := .member .detached hostTree ⟨.detached, "$hostElement$"⟩ false

/-- Where the host element keeps its internals. -/
def slotTree : Expr := .index .detached hostElementTree (.string .detached (.ofString "s-ei")) false

/-- A member of the instance. -/
def instanceTree (member : String) : Expr :=
  if isIdentifierName member then .member .detached (.this .detached) ⟨.detached, member⟩ false
  else .index .detached (.this .detached) (.string .detached (.ofString member)) false

/-- The element of the host, as lexemes. -/
def hostElementLexemes : List Lexeme :=
  [.word hostName false, .mark ".", .word "$hostElement$" false]

/-- Where the host element keeps its internals, as lexemes. -/
def slotLexemes : List Lexeme :=
  hostElementLexemes ++ [.mark "[", .string (.ofString "s-ei"), .mark "]"]

/-- A member of the instance, as lexemes. -/
def instanceLexemes (member : String) : List Lexeme :=
  .word "this" false ::
    (if isIdentifierName member then [.mark ".", .word member false]
    else [.mark "[", .string (.ofString member), .mark "]"])

theorem plain_hostName : IsPlainName hostName := ⟨by decide, by decide⟩

theorem forms_hostElement : Forms .operand hostElementLexemes hostElementTree :=
  .member (.name plain_hostName) "$hostElement$"

theorem forms_slot : Forms .operand slotLexemes slotTree :=
  .index forms_hostElement (.single (.string _))

theorem forms_instance (member : String) :
    Forms .operand (instanceLexemes member) (instanceTree member) := by
  unfold instanceLexemes instanceTree
  split
  · exact .member .this member
  · exact .index .this (.single (.string _))

theorem access_instance (member : String) : IsMemberAccess (instanceTree member) := by
  unfold instanceTree
  split
  · exact .member _ _
  · exact .index _ _

/-- Whether a text spells some lexemes in front of what no word goes on with. -/
def SpellsPhrase (text : String) (lexemes : List Lexeme) : Prop :=
  ∀ rest more, EndsWord rest → Spells rest more → Spells (text.toList ++ rest) (lexemes ++ more)

theorem spells_hostElement : SpellsPhrase hostElement hostElementLexemes := by
  intro rest more ends h
  have eq : hostElement.toList = hostName.toList ++ '.' :: "$hostElement$".toList := by decide
  rw [eq, List.append_assoc]
  exact (h.dotWord (by decide) ends).word (by decide) (endsWord_cons (by decide) (by decide) _)

theorem spells_slot : SpellsPhrase internalsSlot slotLexemes := by
  intro rest more _ h
  have eq : internalsSlot.toList = hostElement.toList ++ '[' :: ((quote "s-ei").toList ++ [']']) := by
    decide
  have key := ((h.mark (c := ']') (m := "]") (by decide)).string "s-ei").mark (c := '[') (m := "[")
    (by decide)
  have slot := spells_hostElement _ _ (endsWord_cons (by decide) (by decide) _) key
  rw [eq, slotLexemes]
  simpa using slot

theorem spells_instance (member : String) :
    SpellsPhrase (memberAccess "this" member) (instanceLexemes member) := by
  intro rest more ends h
  unfold memberAccess instanceLexemes
  split
  · rename_i name
    have member := (h.dotWord (isWordText_of_isIdentifierName name) ends).word (n := "this")
      (by decide) (endsWord_cons (by decide) (by decide) _)
    simpa using member
  · have key := ((h.mark (c := ']') (m := "]") (by decide)).string member).mark (c := '[')
      (m := "[") (by decide)
    have member := key.word (n := "this") (by decide) (endsWord_cons (by decide) (by decide) _)
    simpa using member

/-! ### The statements of the constructor -/

/-- The statement that registers the instance. -/
def registerTree : Stmt :=
  .expression .detached
    (.call .detached (.ident .detached CoreFunction.registerInstance.localName) []
      [.this .detached, hostTree] false false)

/-- The call that attaches internals to the element of the host. -/
def attachTree : Expr :=
  .call .detached (.member .detached hostElementTree ⟨.detached, "attachInternals"⟩ false) [] []
    false false

/-- The statement that assigns to a place. -/
def assignmentTree (target value : Expr) : Stmt :=
  .expression .detached (madeAssignment target value)

/-- The statement that gives a member the internals, which are attached only once. -/
def internalsTree (member : String) : Stmt :=
  .branch .detached slotTree
    (.block .detached [assignmentTree (instanceTree member) slotTree])
    (some (.block .detached
      [assignmentTree (instanceTree member) attachTree,
        assignmentTree slotTree (instanceTree member)]))

/-- The statement that registers the instance, as lexemes. -/
def registerLexemes : List Lexeme :=
  [.word CoreFunction.registerInstance.localName false, .mark "(", .word "this" false, .mark ",",
    .word hostName false, .mark ")", .mark ";"]

/-- The call that attaches internals, as lexemes. -/
def attachLexemes : List Lexeme :=
  hostElementLexemes ++ [.mark ".", .word "attachInternals" false] ++ [.mark "(", .mark ")"]

/-- A statement that assigns to a place, as lexemes. -/
def assignmentItem (target : List Lexeme × Expr) (value : List Lexeme × Expr) :
    List Lexeme × Stmt :=
  (target.1 ++ .mark "=" :: (value.1 ++ [.mark ";"]), assignmentTree target.2 value.2)

/-- What happens if internals are attached already. -/
def attachedItems (member : String) : List (List Lexeme × Stmt) :=
  [assignmentItem (instanceLexemes member, instanceTree member) (slotLexemes, slotTree)]

/-- What happens if no internals are attached yet. -/
def detachedItems (member : String) : List (List Lexeme × Stmt) :=
  [assignmentItem (instanceLexemes member, instanceTree member) (attachLexemes, attachTree),
    assignmentItem (slotLexemes, slotTree) (instanceLexemes member, instanceTree member)]

/-- The statement that gives a member the internals, as lexemes. -/
def internalsLexemes (member : String) : List Lexeme :=
  .word "if" false :: .mark "(" :: (slotLexemes ++ .mark ")" ::
    (blockLexemes (attachedItems member) ++ .word "else" false ::
      blockLexemes (detachedItems member)))

theorem beginsValue_registerInstance : BeginsValue CoreFunction.registerInstance.localName :=
  fun _ _ => rfl

theorem beginsValue_this : BeginsValue "this" := fun _ _ => rfl

theorem beginsValue_hostName : BeginsValue hostName := fun _ _ => rfl

theorem forms_register : StatementForms registerLexemes registerTree := by
  have instance' : Forms .sum [.word "this" false] (.this .detached) := .single .this
  have host : Forms .sum [.word hostName false] hostTree := .single (.name plain_hostName)
  exact .value beginsValue_registerInstance
    (.single (.call (.name ⟨by decide, by decide⟩) (by decide)
      [([.word "this" false], .this .detached), ([.word hostName false], hostTree)]
      (by simpa using ⟨instance', host⟩)))

theorem forms_attach : Forms .sum attachLexemes attachTree :=
  .single (.call (.member forms_hostElement "attachInternals") (by decide) [] (by simp))

theorem forms_attached (member : String) :
    ∀ a ∈ attachedItems member, StatementForms a.1 a.2 := by
  intro a ha
  obtain rfl := List.mem_singleton.mp ha
  exact .assign beginsValue_this (access_instance member) (forms_instance member)
    (.single forms_slot)

theorem forms_detached (member : String) :
    ∀ a ∈ detachedItems member, StatementForms a.1 a.2 := by
  intro a ha
  simp only [detachedItems, List.mem_cons, List.not_mem_nil, or_false] at ha
  rcases ha with rfl | rfl
  · exact .assign beginsValue_this (access_instance member) (forms_instance member) forms_attach
  · exact .assign beginsValue_hostName (.index _ _) forms_slot (.single (forms_instance member))

theorem forms_internals (member : String) :
    StatementForms (internalsLexemes member) (internalsTree member) :=
  .branch (.single forms_slot) (attachedItems member) (detachedItems member)
    (forms_attached member) (forms_detached member)

theorem spells_register : SpellsHere registerStatement registerLexemes := by
  intro rest more h
  have eq : registerStatement.toList =
      CoreFunction.registerInstance.localName.toList ++ '(' :: ("this".toList ++ ',' :: ' ' ::
        (hostName.toList ++ [')', ';'])) := by
    decide
  have arguments := ((h.mark (c := ';') (m := ";") (by decide)).mark (c := ')') (m := ")")
    (by decide)).word (n := hostName) (by decide) (endsWord_cons (by decide) (by decide) _)
  have call := (((arguments.space.mark (c := ',') (m := ",") (by decide)).word (n := "this")
    (by decide) (endsWord_cons (by decide) (by decide) _)).mark (c := '(') (m := "(")
    (by decide)).word (n := CoreFunction.registerInstance.localName) (by decide)
    (endsWord_cons (by decide) (by decide) _)
  rw [eq]
  simpa [registerLexemes] using call

theorem spells_attach : SpellsPhrase (hostElement ++ ".attachInternals()") attachLexemes := by
  intro rest more _ h
  have eq : ".attachInternals()".toList = '.' :: ("attachInternals".toList ++ ['(', ')']) := by
    decide
  have call := ((h.mark (c := ')') (m := ")") (by decide)).mark (c := '(') (m := "(")
    (by decide)).dotWord (n := "attachInternals") (by decide)
    (endsWord_cons (by decide) (by decide) _)
  have attach := spells_hostElement _ _ (endsWord_cons (by decide) (by decide) _) call
  rw [String.toList_append, eq]
  simpa [attachLexemes] using attach

theorem spells_assignment {target value : String} {ls ks : List Lexeme}
    (place : SpellsPhrase target ls) (phrase : SpellsPhrase value ks) :
    SpellsHere (target ++ " = " ++ value ++ ";") (ls ++ .mark "=" :: (ks ++ [.mark ";"])) := by
  intro rest more h
  have value := phrase _ _ (endsWord_cons (by decide) (by decide) _)
    (h.mark (c := ';') (m := ";") (by decide))
  have assignment := place _ _ endsWord_space value.equals.space
  simpa using assignment

theorem spells_internals (member : String) :
    SpellsHere (internalsStatement member) (internalsLexemes member) := by
  intro rest more h
  have attached := spells_assignment (spells_instance member) spells_slot
  have attach := spells_assignment (spells_instance member) spells_attach
  have keep := spells_assignment spells_slot (spells_instance member)
  have close {rest : List Char} {more : List Lexeme} (h : Spells rest more) :
      Spells (' ' :: '\x7d' :: rest) (.mark "\x7d" :: more) := (h.mark (by decide)).space
  have no := (attach _ _ (keep _ _ (close h)).space).space.mark (c := '\x7b') (m := "\x7b")
    (by decide)
  have yes := (attached _ _ (close (no.space.word (n := "else") (by decide)
    endsWord_space).space)).space.mark (c := '\x7b') (m := "\x7b") (by decide)
  have test := (spells_slot _ _ (endsWord_cons (by decide) (by decide) _)
    (yes.space.mark (c := ')') (m := ")") (by decide))).mark (c := '(') (m := "(") (by decide)
  have whole := test.space.word (n := "if") (by decide) endsWord_space
  refine (congrArg₂ Spells ?_ ?_).mpr whole
  · unfold internalsStatement
    simp
  · simp [internalsLexemes, attachedItems, detachedItems, assignmentItem, blockLexemes]

/-! ### The constructor -/

/-- The statements at the start of a lowered constructor, given the members that get internals. -/
def injectedStatements (internals : List String) : List Stmt :=
  registerTree :: internals.map internalsTree

/-- The constructor that is written into a class. -/
def constructorTree (internals : List String) : Member :=
  madeConstructor [hostName] (injectedStatements internals)

/-- The statements at the start of a lowered constructor, with their lexemes. -/
def injectedItems (internals : List String) : List (List Lexeme × Stmt) :=
  (registerLexemes, registerTree) ::
    internals.map fun member => (internalsLexemes member, internalsTree member)

theorem injectedItems_trees (internals : List String) :
    (injectedItems internals).map (·.2) = injectedStatements internals := by
  simp [injectedItems, injectedStatements]

theorem forms_injected (internals : List String) :
    ∀ a ∈ injectedItems internals, StatementForms a.1 a.2 := by
  intro a ha
  rcases List.mem_cons.mp ha with rfl | later
  · exact forms_register
  · obtain ⟨member, _, rfl⟩ := List.mem_map.mp later
    exact forms_internals member

theorem spells_injected (internals : List String) :
    SpellsHere ("\n".intercalate (registerStatement :: internals.map internalsStatement))
      ((injectedItems internals).flatMap (·.1)) := by
  have lines := @spells_lines ((registerStatement, registerLexemes) ::
    internals.map fun member => (internalsStatement member, internalsLexemes member))
    (by
      intro p hp
      rcases List.mem_cons.mp hp with rfl | later
      · exact spells_register
      · obtain ⟨member, _, rfl⟩ := List.mem_map.mp later
        exact spells_internals member)
    (by
      intro p hp
      obtain ⟨member, _, rfl⟩ := List.mem_map.mp hp
      exact ⟨"if", by decide, rfl⟩)
  simpa [injectedItems, List.flatMap_map, Function.comp_def] using lines

/-- The constructor is read as it is written. -/
theorem classMembers_constructorText (internals : List String) :
    classMembers (constructorText (registerStatement :: internals.map internalsStatement)) =
      .ok [constructorTree internals] := by
  have spells : SpellsHere
      (constructorText (registerStatement :: internals.map internalsStatement))
      (.word "constructor" false :: functionLexemes [hostName] (injectedItems internals)) := by
    intro rest more h
    have body := (spells_injected internals _ _
      (h.mark (c := '\x7d') (m := "\x7d") (by decide)).space).space.mark (c := '\x7b')
      (m := "\x7b") (by decide)
    have params := ((body.space.mark (c := ')') (m := ")") (by decide)).word (n := hostName)
      (by decide) (endsWord_cons (by decide) (by decide) _)).mark (c := '(') (m := "(") (by decide)
    have whole := params.word (n := "constructor") (by decide)
      (endsWord_cons (by decide) (by decide) _)
    refine (congrArg₂ Spells ?_ ?_).mpr whole
    · unfold constructorText
      simp
    · simp [functionLexemes, blockLexemes, commaJoined]
  have forms : MemberForms (.word "constructor" false ::
      functionLexemes [hostName] (injectedItems internals)) (constructorTree internals) := by
    rw [constructorTree, ← injectedItems_trees]
    exact .constructor [hostName] (by simpa using plain_hostName) _ (forms_injected internals)
  exact @classMembers_eq _ [(_, constructorTree internals)] (by simpa using spells)
    (by simpa using forms)

/-! ### The getters -/

/-- The key of a member that is made up. -/
def getterKey (member : String) : Key :=
  if isIdentifierName member then .name .detached member
  else .computed (.string .detached (.ofString member))

/-- The same key as lexemes. -/
def keyLexemes (member : String) : List Lexeme :=
  if isIdentifierName member then [.word member false]
  else [.mark "[", .string (.ofString member), .mark "]"]

/-- The call that gives the element of an instance. -/
def getElementTree : Expr :=
  .call .detached (.ident .detached CoreFunction.getElement.localName) [] [.this .detached] false
    false

/-- The same call as lexemes. -/
def getElementLexemes : List Lexeme :=
  [.word CoreFunction.getElement.localName false, .mark "(", .word "this" false, .mark ")"]

/-- The getter that replaces a member that held the element. -/
def elementTree (member : String) : Member :=
  madeGetter false (getterKey member) [.returnValue .detached (some getElementTree)]

/-- The getter that makes a component take part in forms. -/
def formTree : Member :=
  madeGetter true (.name .detached "formAssociated")
    [.returnValue .detached (some (.bool .detached true))]

/-- The getter that replaces a member, as lexemes. -/
def elementLexemes (member : String) : List Lexeme :=
  getterLexemes false (keyLexemes member)
    [(.word "return" false :: (getElementLexemes ++ [.mark ";"]),
      .returnValue .detached (some getElementTree))]

/-- The getter that makes a component take part in forms, as lexemes. -/
def formLexemes : List Lexeme :=
  getterLexemes true [.word "formAssociated" false]
    [(.word "return" false :: ([.word "true" false] ++ [.mark ";"]),
      .returnValue .detached (some (.bool .detached true)))]

theorem forms_key (member : String) : MemberKeyForms (keyLexemes member) (getterKey member) := by
  unfold keyLexemes getterKey
  split
  · exact .word member
  · exact .computed (.single (.string _))

theorem isConstructorName_getterKey {member : String} (other : member ≠ "constructor") :
    (getterKey member).isConstructorName = false := by
  unfold getterKey
  split
  · simpa [Key.isConstructorName, Key.isNamed] using other
  · rfl

theorem forms_element {member : String} (other : member ≠ "constructor") :
    MemberForms (elementLexemes member) (elementTree member) := by
  have call : Forms .sum getElementLexemes getElementTree :=
    .single (.call (.name ⟨by decide, by decide⟩) (by decide)
      [([.word "this" false], .this .detached)] (by simpa using .single .this))
  refine @MemberForms.getter false _ _ (forms_key member) (isConstructorName_getterKey other) _ ?_
  intro a ha
  obtain rfl := List.mem_singleton.mp ha
  exact .result (by decide) call

theorem forms_form : MemberForms formLexemes formTree := by
  refine @MemberForms.getter true _ _ (.word "formAssociated") rfl _ ?_
  intro a ha
  obtain rfl := List.mem_singleton.mp ha
  exact .result (by decide) (.single .true)

theorem spells_key (member : String) : SpellsPhrase (Code.memberKey member) (keyLexemes member) := by
  intro rest more ends h
  unfold Code.memberKey keyLexemes
  split
  · exact h.word (isWordText_of_isIdentifierName ‹_›) ends
  · have key := ((h.mark (c := ']') (m := "]") (by decide)).string member).mark (c := '[')
      (m := "[") (by decide)
    simpa using key

theorem spells_element (member : String) :
    SpellsHere (elementGetter member) (elementLexemes member) := by
  intro rest more h
  have close := (((h.mark (c := '\x7d') (m := "\x7d") (by decide)).space.mark (c := ';')
    (m := ";") (by decide)).mark (c := ')') (m := ")") (by decide)).word (n := "this") (by decide)
    (endsWord_cons (by decide) (by decide) _)
  have call := ((close.mark (c := '(') (m := "(") (by decide)).word
    (n := CoreFunction.getElement.localName) (by decide)
    (endsWord_cons (by decide) (by decide) _)).space.word (n := "return") (by decide) endsWord_space
  have params := ((call.space.mark (c := '\x7b') (m := "\x7b") (by decide)).space.mark (c := ')')
    (m := ")") (by decide)).mark (c := '(') (m := "(") (by decide)
  have whole := (spells_key member _ _ (endsWord_cons (by decide) (by decide) _) params).space.word
    (n := "get") (by decide) endsWord_space
  refine (congrArg₂ Spells ?_ ?_).mpr whole
  · unfold elementGetter
    simp
  · simp [elementLexemes, getterLexemes, functionLexemes, blockLexemes, commaJoined,
      getElementLexemes]

theorem spells_form : SpellsHere formAssociatedGetter formLexemes := by
  intro rest more h
  have close := (((h.mark (c := '\x7d') (m := "\x7d") (by decide)).space.mark (c := ';')
    (m := ";") (by decide)).word (n := "true") (by decide)
    (endsWord_cons (by decide) (by decide) _)).space.word (n := "return") (by decide) endsWord_space
  have params := ((close.space.mark (c := '\x7b') (m := "\x7b") (by decide)).space.mark (c := ')')
    (m := ")") (by decide)).mark (c := '(') (m := "(") (by decide)
  have whole := ((params.word (n := "formAssociated") (by decide)
    (endsWord_cons (by decide) (by decide) _)).space.word (n := "get") (by decide)
    endsWord_space).space.word (n := "static") (by decide) endsWord_space
  refine (congrArg₂ Spells ?_ ?_).mpr whole
  · unfold formAssociatedGetter
    simp
  · simp [formLexemes, getterLexemes, functionLexemes, blockLexemes, commaJoined]

/-- The members behind the other members of a lowered class. -/
def appendedTrees (forms : Bool) (elements : List String) : List Member :=
  (if forms then [formTree] else []) ++ elements.map elementTree

/-- The same members with their lexemes. -/
def appendedItems (forms : Bool) (elements : List String) : List (List Lexeme × Member) :=
  (if forms then [(formLexemes, formTree)] else []) ++
    elements.map fun member => (elementLexemes member, elementTree member)

theorem appendedItems_trees (forms : Bool) (elements : List String) :
    (appendedItems forms elements).map (·.2) = appendedTrees forms elements := by
  cases forms <;> simp [appendedItems, appendedTrees, Function.comp_def]

theorem forms_appended {forms : Bool} {elements : List String}
    (others : "constructor" ∉ elements) :
    ∀ a ∈ appendedItems forms elements, MemberForms a.1 a.2 := by
  intro a ha
  rcases List.mem_append.mp ha with form | element
  · cases forms with
    | false => cases form
    | true =>
        obtain rfl := List.mem_singleton.mp form
        exact forms_form
  · obtain ⟨member, mem, rfl⟩ := List.mem_map.mp element
    exact forms_element fun same => others (same ▸ mem)

/-- The text of the members behind the others. -/
def appendedText (forms : Bool) (elements : List String) : String :=
  "\n".intercalate ((if forms then [formAssociatedGetter] else []) ++ elements.map elementGetter)

theorem spells_appended (forms : Bool) (elements : List String) :
    SpellsHere (appendedText forms elements) ((appendedItems forms elements).flatMap (·.1)) := by
  have each : ∀ p ∈ elements.map fun member => (elementGetter member, elementLexemes member),
      SpellsHere p.1 p.2 ∧ BeginsLine p.2 := by
    intro p hp
    obtain ⟨member, _, rfl⟩ := List.mem_map.mp hp
    exact ⟨spells_element member, "get", by decide, rfl⟩
  cases forms with
  | false =>
      have lines := spells_lines (fun p hp => (each p hp).1)
        fun p hp => (each p (List.mem_of_mem_tail hp)).2
      simpa [appendedText, appendedItems, List.flatMap_map, Function.comp_def] using lines
  | true =>
      have first : SpellsHere formAssociatedGetter formLexemes := spells_form
      have lines := @spells_lines ((formAssociatedGetter, formLexemes) ::
        elements.map fun member => (elementGetter member, elementLexemes member))
        (List.forall_mem_cons.mpr ⟨first, fun p hp => (each p hp).1⟩) fun p hp => (each p hp).2
      simpa [appendedText, appendedItems, List.flatMap_map, Function.comp_def] using lines

/-- The members behind the others are read as they are written, unless one of them would be a getter
named like the constructor. -/
theorem classMembers_appendedText (forms : Bool) (elements : List String) :
    ("constructor" ∉ elements →
      classMembers (appendedText forms elements) = .ok (appendedTrees forms elements)) ∧
    ("constructor" ∈ elements →
      ∃ failure, classMembers (appendedText forms elements) = .error failure) := by
  constructor
  · intro others
    rw [← appendedItems_trees]
    exact classMembers_eq (spells_appended forms elements) (forms_appended others)
  · intro mem
    obtain ⟨before, behind, rfl, first⟩ := List.eq_append_cons_of_mem mem
    have spells := spells_appended forms (before ++ "constructor" :: behind)
    have split : (appendedItems forms (before ++ "constructor" :: behind)).flatMap (·.1) =
        (appendedItems forms before).flatMap (·.1) ++ .word "get" false ::
          .word "constructor" false :: (functionLexemes []
            [(.word "return" false :: (getElementLexemes ++ [.mark ";"]),
              .returnValue .detached (some getElementTree))] ++
            (behind.map fun member => (elementLexemes member, elementTree member)).flatMap (·.1)) := by
      have key : keyLexemes "constructor" = [.word "constructor" false] := by decide
      simp [appendedItems, elementLexemes, getterLexemes, key]
    rw [split] at spells
    exact classMembers_error spells (forms_appended first)

end ComponentLowering.Lowering
