/-
# Outlines of annotations

Whether a class is a component depends on little of it: on whether it has a name, and on the outlines
of its decorators.  Two classes with the same outline are both components or both not, wherever they
stand and whatever their members are.
-/
import ComponentLowering.Proofs.Component.RecordedMembers
import ComponentLowering.Syntax.Wrapped

namespace ComponentLowering.Component

open ComponentLowering.Style ComponentLowering.Syntax ComponentLowering.Text

/-! ### Outlines -/

/-- What counts of a value. -/
inductive ValueOutline where
  | text (value : String)
  | other
deriving DecidableEq, Repr

/-- What counts of a member of an object literal.  The key is missing if it is not a plain one. -/
inductive MemberOutline where
  | entry (key : Option String) (value : ValueOutline)
  | other
deriving DecidableEq, Repr

/-- What counts of an argument. -/
inductive ArgumentOutline where
  | object (members : List MemberOutline)
  | spread
  | other
deriving DecidableEq, Repr

/-- What counts of a decorator. -/
inductive DecoratorOutline where
  | call (name : String) (arguments : List ArgumentOutline)
  | symbol (name : String)
  | other
deriving DecidableEq, Repr

/-- What counts of a class. -/
structure ClassOutline where
  named : Bool
  decorators : List DecoratorOutline
deriving DecidableEq, Repr

/-- The outline of a value. -/
def valueOutline (e : Expr) : ValueOutline :=
  match Literal.string e with
  | .ok value => .text value
  | .error _ => .other

/-- The outline of a member. -/
def memberOutline : Expr → MemberOutline
  | .property _ key value _ => .entry (Literal.keyName key).toOption (valueOutline value)
  | .objectMethod _ _ key _ => .entry (Literal.keyName key).toOption .other
  | _ => .other

/-- The outline of an argument. -/
def argumentOutline : Expr → ArgumentOutline
  | .object _ members => .object (members.map memberOutline)
  | .spread _ _ => .spread
  | _ => .other

/-- The outline of a decorator. -/
def decoratorOutline (d : Decorator) : DecoratorOutline :=
  match d.expr with
  | .call _ (.ident _ name) _ args _ _ => .call name (args.map argumentOutline)
  | .ident _ name => .symbol name
  | _ => .other

/-- The outline of a class. -/
def outline (decl : ClassDef) : ClassOutline where
  named := decl.name.isSome
  decorators := decl.decorators.map decoratorOutline

/-! ### Acceptance -/

/-- The keys of members with their values, if all members are plain. -/
def outlineEntries : List MemberOutline → Option (List (String × ValueOutline))
  | [] => some []
  | .entry (some key) value :: rest => (outlineEntries rest).map ((key, value) :: ·)
  | _ :: _ => none

/-- The configuration that arguments give: the members of the first one if it is an object literal and
none of them is spread. -/
def configured (arguments : List ArgumentOutline) : Option (List (String × ValueOutline)) :=
  if arguments.contains .spread then none
  else match arguments with
    | .object members :: _ => (outlineEntries members).map ofPairs
    | _ => none

/-- Whether the tag of a configuration is a text that is not blank. -/
def tagged (config : List (String × ValueOutline)) : Bool :=
  match lookup "tag" config with
  | some (.text value) => !isBlankText value
  | _ => false

/-- Whether an outline is that of the component decorator. -/
def DecoratorOutline.isComponent : DecoratorOutline → Bool
  | .call name _ | .symbol name => name == componentDecorator
  | .other => false

/-- Whether an outline is that of a call with a tag. -/
def DecoratorOutline.namesTag : DecoratorOutline → Bool
  | .call _ arguments => (configured arguments).any tagged
  | .symbol _ | .other => false

/-- Whether an outline is that of a component: the class has a name, and the first component decorator
is called with a tag. -/
def ClassOutline.isComponent (c : ClassOutline) : Bool :=
  (c.decorators.find? DecoratorOutline.isComponent).any fun d => c.named && d.namesTag

/-- Whether a class is a component. -/
def isComponent (source : List Char) (decl : ClassDef) : Bool :=
  match readClass source decl with
  | .component _ => true
  | _ => false

theorem lookup_map {α β : Type} (f : α → β) (key : String) (pairs : List (String × α)) :
    lookup key (pairs.map fun p => (p.1, f p.2)) = (lookup key pairs).map f := by
  induction pairs with
  | nil => rfl
  | cons p rest ih =>
      rw [List.map_cons]
      unfold lookup
      split
      · rfl
      · exact ih

theorem setPair_map {α β : Type} (f : α → β) (pairs : List (String × α)) (key : String) (value : α) :
    setPair (pairs.map fun p => (p.1, f p.2)) key (f value) =
      (setPair pairs key value).map fun p => (p.1, f p.2) := by
  induction pairs with
  | nil => rfl
  | cons p rest ih =>
      rw [List.map_cons]
      unfold setPair
      split
      · rfl
      · rw [ih, List.map_cons]

theorem ofPairs_map {α β : Type} (f : α → β) (pairs : List (String × α)) :
    ofPairs (pairs.map fun p => (p.1, f p.2)) = (ofPairs pairs).map fun p => (p.1, f p.2) := by
  have set (acc : List (String × α)) :
      (pairs.map fun p => (p.1, f p.2)).foldl (fun acc p => setPair acc p.1 p.2)
          (acc.map fun p => (p.1, f p.2)) =
        (pairs.foldl (fun acc p => setPair acc p.1 p.2) acc).map fun p => (p.1, f p.2) := by
    induction pairs generalizing acc with
    | nil => rfl
    | cons p rest ih =>
        rw [List.map_cons, List.foldl_cons, List.foldl_cons, setPair_map]
        exact ih _
  exact set []

theorem memberEntries_outline (members : List Expr) :
    (Literal.memberEntries members).toOption.map (·.map fun p => (p.1, valueOutline p.2)) =
      outlineEntries (members.map memberOutline) := by
  induction members with
  | nil => rfl
  | cons e rest ih =>
      have step (key : Key) (value : Expr) (v : ValueOutline) (same : valueOutline value = v) :
          (do return (← Literal.keyName key, value) :: (← Literal.memberEntries rest)
              : Except LiteralFault (List (String × Expr))).toOption.map
              (·.map fun p => (p.1, valueOutline p.2)) =
            outlineEntries (.entry (Literal.keyName key).toOption v :: rest.map memberOutline) := by
        subst same
        cases Literal.keyName key with
        | error fault => rfl
        | ok name =>
            show _ = (outlineEntries (rest.map memberOutline)).map _
            rw [← ih]
            cases Literal.memberEntries rest <;> rfl
      cases e with
      | property span key value shorthand => exact step key value _ rfl
      | objectMethod span kind key fn => exact step key (.function fn) _ rfl
      | _ => rfl

theorem plainArguments_eq (args : List Expr) :
    (Literal.plainArguments args).toOption =
      if (args.map argumentOutline).contains .spread then none else some args := by
  induction args with
  | nil => rfl
  | cons e rest ih =>
      have step (plain : argumentOutline e ≠ .spread) :
          (do return e :: (← Literal.plainArguments rest) : Except LiteralFault (List Expr)).toOption =
            if ((e :: rest).map argumentOutline).contains .spread then none else some (e :: rest) := by
        rw [List.map_cons, List.contains_cons, beq_false_of_ne plain.symm, Bool.false_or]
        split at ih
        · rename_i spread
          rw [if_pos spread]
          cases eq : Literal.plainArguments rest with
          | error fault => rfl
          | ok more => rw [eq] at ih; cases ih
        · rename_i noSpread
          rw [if_neg noSpread]
          cases eq : Literal.plainArguments rest with
          | error fault => rw [eq] at ih; cases ih
          | ok more =>
              rw [eq] at ih
              cases ih
              rfl
      cases e with
      | spread span value => simp [argumentOutline, Literal.plainArguments, Except.toOption]
      | _ => exact step (by simp [argumentOutline])

theorem isSome_bind {ε α β : Type} (x : Except ε α) (f : α → Except ε β) :
    (x >>= f).toOption.isSome = x.toOption.any fun a => (f a).toOption.isSome := by
  cases x <;> rfl

section

variable {source : List Char} {className : String}

/-- The configuration that a component decorator is called with has the outline that its arguments
give. -/
theorem configuration_outline {span : Span} {callee : Expr} {typeArgs : List TypeNode}
    {args : List Expr} {optional isPure : Bool} :
    (configuration source className
        (.call span callee typeArgs args optional isPure)).toOption.map
        (·.map fun p => (p.1, valueOutline p.2)) =
      configured (args.map argumentOutline) := by
  have plain := plainArguments_eq args
  unfold configuration Literal.arguments configured
  dsimp only
  split at plain
  · rename_i spread
    rw [if_pos spread]
    cases eq : Literal.plainArguments args with
    | error fault => rfl
    | ok more => rw [eq] at plain; cases plain
  · rename_i noSpread
    rw [if_neg noSpread]
    cases eq : Literal.plainArguments args with
    | error fault => rw [eq] at plain; cases plain
    | ok more =>
        rw [eq] at plain
        cases plain
        cases args with
        | nil => rfl
        | cons e rest =>
            cases e with
            | object span members =>
                have entries := memberEntries_outline members
                simp only [Literal.isObject, ↓reduceIte, Literal.object, Literal.entries,
                  List.map_cons, argumentOutline]
                rw [← entries]
                cases Literal.memberEntries members with
                | error fault => rfl
                | ok pairs => exact (congrArg some (ofPairs_map valueOutline pairs)).symm
            | _ => rfl

theorem readTag_outline {config : List (String × Expr)} :
    (readTag source className config).toOption.isSome =
      tagged (config.map fun p => (p.1, valueOutline p.2)) := by
  unfold readTag tagged
  rw [lookup_map]
  cases lookup "tag" config with
  | none => rfl
  | some node =>
      simp only [Option.map_some, valueOutline]
      cases Literal.string node with
      | error fault => rfl
      | ok value =>
          dsimp only
          cases isBlankText value <;> simp [Except.toOption]

/-- The arguments of its component decorator decide whether a named class is a component. -/
theorem readNamed_outline {decl : ClassDef} {decorator : Decorator} {span : Span} {callee : Expr}
    {typeArgs : List TypeNode} {args : List Expr} {optional isPure : Bool}
    (call : decorator.expr = .call span callee typeArgs args optional isPure) :
    (readNamed source className decl decorator).toOption.isSome =
      (configured (args.map argumentOutline)).any tagged := by
  rw [← configuration_outline]
  unfold readNamed
  rw [call]
  simp only [Literal.isCall, Bool.not_true, Bool.false_eq_true, ↓reduceIte, isSome_bind]
  cases configuration source className (.call span callee typeArgs args optional isPure) with
  | error fault => rfl
  | ok config =>
      show (readTag source className config).toOption.any (fun _ => true) =
        tagged (config.map fun p => (p.1, valueOutline p.2))
      rw [← readTag_outline]
      cases readTag source className config <;> rfl

end

theorem isComponent_decoratorOutline (d : Decorator) :
    (decoratorOutline d).isComponent = isComponentDecorator d := by
  obtain ⟨span, expr⟩ := d
  cases expr with
  | call span callee typeArgs args optional isPure => cases callee <;> rfl
  | _ => rfl

/-- A named class is a component exactly if its component decorator is called with a tag. -/
theorem isSome_readNamed (source : List Char) (className : String) (decl : ClassDef)
    {decorator : Decorator} (component : isComponentDecorator decorator = true) :
    (readNamed source className decl decorator).toOption.isSome =
      (decoratorOutline decorator).namesTag := by
  obtain ⟨span, expr⟩ := decorator
  cases expr with
  | call span callee typeArgs args optional isPure =>
      cases callee with
      | ident span name => exact readNamed_outline rfl
      | _ => cases component
  | ident span name => rfl
  | _ => cases component

/-- Whether a class is a component is a matter of its outline. -/
theorem isComponent_eq (source : List Char) (decl : ClassDef) :
    isComponent source decl = (outline decl).isComponent := by
  have find : (decl.decorators.map decoratorOutline).find? DecoratorOutline.isComponent =
      (decl.decorators.find? isComponentDecorator).map decoratorOutline := by
    rw [List.find?_map]
    congr 2
    funext d
    exact isComponent_decoratorOutline d
  unfold isComponent readClass ClassOutline.isComponent outline
  dsimp only
  rw [find]
  cases eq : decl.decorators.find? isComponentDecorator with
  | none => rfl
  | some decorator =>
      rw [Option.map_some]
      cases decl.name with
      | none => rfl
      | some name =>
          show _ = (decoratorOutline decorator).namesTag
          rw [← isSome_readNamed source name.name decl (List.find?_some eq)]
          dsimp only
          cases readNamed source name.name decl decorator <;> rfl

/-- A class without a component decorator is no component. -/
theorem isComponent_of_not_mem {source : List Char} {decl : ClassDef}
    (h : ∀ d ∈ decl.decorators, isComponentDecorator d = false) :
    isComponent source decl = false := by
  unfold isComponent
  rw [readClass_of_not_mem h]

/-! ### Parentheses -/

/-- A member of an object literal without the parentheses around its value. -/
def bareMember : Expr → Expr
  | .property span key value shorthand => .property span key value.bare shorthand
  | e => e

/-- An argument without the parentheses around it, and around the values in it if it is an object
literal. -/
def bareArgument (e : Expr) : Expr :=
  match e.bare with
  | .object span members => .object span (members.map bareMember)
  | e => e

/-- A decorator without parentheses in its arguments. -/
def bareDecorator (d : Decorator) : Decorator :=
  match d.expr with
  | .call span (.ident place name) typeArgs args optional isPure =>
    { d with
      expr := .call span (.ident place name) typeArgs (args.map bareArgument) optional isPure }
  | _ => d

/-- A class without parentheses in the arguments of its decorators. -/
def bareClass (decl : ClassDef) : ClassDef :=
  { decl with decorators := decl.decorators.map bareDecorator }

theorem isComponentDecorator_bareDecorator (d : Decorator) :
    isComponentDecorator (bareDecorator d) = isComponentDecorator d := by
  obtain ⟨span, expr⟩ := d
  cases expr with
  | call span callee typeArgs args optional isPure => cases callee <;> rfl
  | _ => rfl

end ComponentLowering.Component
