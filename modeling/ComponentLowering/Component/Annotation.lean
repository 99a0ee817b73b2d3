/-
# Reading annotations

A class is a component if it carries the component decorator, has a name, and gives the decorator
an object literal with a tag.  Whatever else is wrong with the annotations only leads to warnings.
-/
import ComponentLowering.Component.Literal
import ComponentLowering.Component.Metadata
import ComponentLowering.Text.Blank

namespace ComponentLowering.Component

open ComponentLowering.Report ComponentLowering.Style ComponentLowering.Syntax
open ComponentLowering.Text

/-- The name of a decorator that is a name or the call of a name. -/
def decoratorName (d : Decorator) : Option String :=
  match d.expr with
  | .call _ (.ident _ name) _ _ _ _ => some name
  | .ident _ name => some name
  | _ => none

/-- Whether a decorator is the component decorator. -/
def isComponentDecorator (d : Decorator) : Bool := decoratorName d == some componentDecorator

/-- The name of a field, unless its key is computed, private or a number. -/
def fieldName (f : Field) : Option String :=
  match f.key with
  | .name _ name => some name
  | .string _ value => some value.text
  | _ => none

/-- What the name of a decorator makes of a member. -/
def kindOfDecorator (name : String) : Option MemberKind :=
  if name == elementDecorator then some .element
  else if name == internalsDecorator then some .internals
  else none

/-- What the decorators of a field make of it.  The first one with a meaning counts. -/
def fieldKind (f : Field) : Option MemberKind :=
  (f.decorators.filterMap decoratorName).findSome? kindOfDecorator

/-- The name of the first decorator of a field that has one. -/
def firstDecorator (f : Field) : String :=
  ((f.decorators.filterMap decoratorName).head?).getD "<expression>"

/-- Something that is read, with the warnings raised on the way. -/
structure Warned (α : Type) where
  value : α
  warnings : List Diagnostic
deriving Repr

section

variable (source : List Char) (className : String)

/-- The text of an expression. -/
def shown (e : Expr) : String := e.span.text source

/-- A warning about the class. -/
def warn (code : DiagnosticCode) (message : String) : Diagnostic :=
  .warning code (some className) message

/-- An error about the class. -/
def refuse (code : DiagnosticCode) (message : String) : Diagnostic :=
  .error code (some className) message

/-- The configuration that a component decorator is called with. -/
def configuration (call : Expr) : Except Diagnostic (List (String × Expr)) :=
  let notLiteral (detail : String) : Diagnostic :=
    refuse className .decoratorArgNotLiteral
      ("@Component() argument must be an object literal: " ++ detail)
  match Literal.arguments call with
  | .error fault => .error (notLiteral fault.message)
  | .ok [] => .error (notLiteral "no argument given")
  | .ok (argument :: _) =>
    if Literal.isObject argument then
      match Literal.object argument with
      | .error fault => .error (notLiteral fault.message)
      | .ok config => .ok config
    else .error (notLiteral ("got `" ++ shown source argument ++ "`"))

/-- The tag of a component, without blanks around it. -/
def readTag (config : List (String × Expr)) : Except Diagnostic String :=
  match lookup "tag" config with
  | none => .error (refuse className .componentMissingTag "@Component() requires a `tag`")
  | some node =>
    match Literal.string node with
    | .error _ =>
      .error (refuse className .valueNotLiteral
        ("@Component() `tag` must be a string literal, got `" ++ shown source node ++ "`"))
    | .ok text =>
      if isBlankText text then
        .error (refuse className .componentMissingTag "@Component() `tag` must not be empty")
      else .ok (trim text)

/-- Whether a component takes part in forms. -/
def readFormAssociated (config : List (String × Expr)) : Warned Bool :=
  match lookup "formAssociated" config with
  | none => ⟨false, []⟩
  | some node =>
    match Literal.boolean node with
    | .ok value => ⟨value, []⟩
    | .error _ =>
      ⟨false, [warn className .valueNotLiteral
        ("`formAssociated` is not a boolean literal (`" ++ shown source node
          ++ "`); treating it as false")]⟩

/-- The paths of a list of style sheets.  Entries that are no strings are left out. -/
def stylePaths : List Expr → Warned (List String)
  | [] => ⟨[], []⟩
  | e :: rest =>
    let more := stylePaths rest
    match Literal.string e with
    | .ok path => ⟨path :: more.value, more.warnings⟩
    | .error _ =>
      ⟨more.value, warn className .valueNotLiteral
        ("`styleUrls` entry `" ++ shown source e ++ "` is not a string literal; skipping it")
          :: more.warnings⟩

/-- The warning about a key that has been declared before. -/
def repeatedKey (seen : List String) (key : String) : List Diagnostic :=
  if seen.contains key then
    [warn className .duplicateStyleKey
      ("`styleUrls` key `" ++ key ++ "` is declared more than once; the last one wins")]
  else []

/-- The paths of style sheets that have keys.  The last path of a repeated key counts. -/
def stylePairs : List String → List (String × String) → List (String × Expr) →
    Warned (List (String × String))
  | _, pairs, [] => ⟨pairs, []⟩
  | seen, pairs, (key, value) :: rest =>
    let repeated := repeatedKey className seen key
    match Literal.string value with
    | .ok path =>
      let more := stylePairs (key :: seen) (setPair pairs key path) rest
      ⟨more.value, repeated ++ more.warnings⟩
    | .error _ =>
      let more := stylePairs (key :: seen) pairs rest
      ⟨more.value, repeated ++ warn className .valueNotLiteral
        ("`styleUrls." ++ key ++ "` is not a string literal (`" ++ shown source value
          ++ "`); skipping it") :: more.warnings⟩

/-- The style sheets that a list or a mapping of them names. -/
def styleUrls (node : Expr) : Warned (Option Refs) :=
  let unreadable (fault : LiteralFault) : Warned (Option Refs) :=
    ⟨none, [warn className .valueNotLiteral ("`styleUrls`: " ++ fault.message)]⟩
  if Literal.isArray node then
    match Literal.array node with
    | .error fault => unreadable fault
    | .ok elements =>
      let paths := stylePaths source className elements
      ⟨some (.sequence paths.value), paths.warnings⟩
  else if Literal.isObject node then
    match Literal.entries node with
    | .error fault => unreadable fault
    | .ok entries =>
      let pairs := stylePairs source className [] [] entries
      ⟨some (.mapping pairs.value), pairs.warnings⟩
  else
    ⟨none, [warn className .valueHasWrongType
      ("`styleUrls` must be an array or object literal, got `" ++ shown source node
        ++ "`; ignoring it")]⟩

/-- The style sheets of a component, if it has any. -/
def styleRefs (config : List (String × Expr)) : Warned (Option Refs) :=
  let refs : Warned (Option Refs) :=
    match lookup "styleUrls" config with
    | some node => styleUrls source className node
    | none =>
      match lookup "styleUrl" config with
      | none => ⟨none, []⟩
      | some node =>
        match Literal.string node with
        | .ok path => ⟨some (.sequence [path]), []⟩
        | .error _ =>
          ⟨none, [warn className .valueNotLiteral
            ("`styleUrl` must be a string literal, got `" ++ shown source node
              ++ "`; ignoring it")]⟩
  { refs with value := refs.value.filter (!·.isEmpty) }

/-- What a decorated field is, as members and warnings. -/
def readField (f : Field) : Warned (List AnnotatedMember) :=
  let other : List AnnotatedMember :=
    (fieldName f).toList.map fun name => { name, kind := .other (firstDecorator f) }
  match fieldKind f with
  | none => ⟨other, []⟩
  | some kind =>
    match fieldName f, f.isStatic with
    | some name, false => ⟨[{ name, kind }], []⟩
    | _, _ =>
      ⟨other, [warn className .memberNameNotStatic
        "member decorators need a non-static field with a plain name; leaving it untouched"]⟩

/-- The decorated fields of a class. -/
def readMembers : List Member → Warned (List AnnotatedMember)
  | [] => ⟨[], []⟩
  | .field f :: rest =>
    let more := readMembers rest
    if f.decorators.isEmpty then more
    else
      let here := readField className f
      ⟨here.value ++ more.value, here.warnings ++ more.warnings⟩
  | _ :: rest => readMembers rest

/-- The warning about internals of a component that takes no part in forms. -/
def internalsWarning (isFormAssociated : Bool) (members : List AnnotatedMember) :
    List Diagnostic :=
  if !isFormAssociated && members.any (·.kind == .internals) then
    [warn className .attachInternalsWithoutFormAssociated
      "@AttachInternals() is used but the component is not `formAssociated: true`"]
  else []

/-- Reads a named class with the given component decorator. -/
def readNamed (decl : ClassDef) (decorator : Decorator) : Except Diagnostic Component := do
  if !Literal.isCall decorator.expr then
    throw (refuse className .decoratorNotCalled
      "@Component must be called, e.g. @Component(\x7b tag: 'my-cmp' \x7d)")
  let config ← configuration source className decorator.expr
  let tag ← readTag source className config
  let forms := readFormAssociated source className config
  let styles := styleRefs source className config
  let members := readMembers className decl.members
  return {
    className, tag
    styles := styles.value
    formAssociated := forms.value
    members := members.value
    warnings := forms.warnings ++ styles.warnings ++ members.warnings
      ++ internalsWarning className forms.value members.value }

end

/-- Reads a class of a module with the given text. -/
def readClass (source : List Char) (decl : ClassDef) : ClassReading :=
  match decl.decorators.find? isComponentDecorator with
  | none => .plain
  | some decorator =>
    match decl.name with
    | none =>
      .skipped (.error .componentMissingName none "@Component() cannot decorate an anonymous class")
    | some name =>
      match readNamed source name.name decl decorator with
      | .error reason => .skipped reason
      | .ok c => .component c

end ComponentLowering.Component
