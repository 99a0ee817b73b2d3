/-
# Diagnostics

A problem with one class.  It never stops a module: the class is left as it is, or the faulty
part of its annotation is ignored.
-/

namespace ComponentLowering.Report

/-- What a diagnostic is about. -/
inductive DiagnosticCode where
  /-- The component decorator is not given an object literal. -/
  | decoratorArgNotLiteral
  /-- The component decorator is not called. -/
  | decoratorNotCalled
  /-- A value is not the literal that is expected. -/
  | valueNotLiteral
  /-- A value is a literal of another shape. -/
  | valueHasWrongType
  /-- A decorated member is static or has no plain name. -/
  | memberNameNotStatic
  /-- A component has no tag. -/
  | componentMissingTag
  /-- A component class has no name. -/
  | componentMissingName
  /-- A style key is declared twice. -/
  | duplicateStyleKey
  /-- Internals are attached to a component that is not form associated. -/
  | attachInternalsWithoutFormAssociated
  /-- The parameters of a constructor were dropped. -/
  | constructorParametersDropped
deriving DecidableEq, Repr, Inhabited

namespace DiagnosticCode

/-- The number of a code. -/
def number : DiagnosticCode → Nat
  | decoratorArgNotLiteral => 1001
  | decoratorNotCalled => 1003
  | valueHasWrongType => 1010
  | valueNotLiteral => 1011
  | memberNameNotStatic => 1020
  | componentMissingTag => 2001
  | componentMissingName => 2002
  | duplicateStyleKey => 2101
  | attachInternalsWithoutFormAssociated => 2102
  | constructorParametersDropped => 2103

/-- The form in which a code is reported. -/
def label (code : DiagnosticCode) : String := "LZ" ++ String.ofList (Nat.toDigits 10 code.number)

end DiagnosticCode

/-- How grave a diagnostic is.  After an error the class has not been rewritten. -/
inductive Category where
  | warning | error
deriving DecidableEq, Repr, Inhabited

/-- The word for a category. -/
def Category.word : Category → String
  | warning => "warning"
  | error => "error"

/-- A problem with one class. -/
structure Diagnostic where
  code : DiagnosticCode
  category : Category
  className : Option String
  message : String
deriving DecidableEq, Repr, Inhabited

namespace Diagnostic

/-- A diagnostic that leaves the class rewritten. -/
def warning (code : DiagnosticCode) (className : Option String) (message : String) : Diagnostic :=
  { code, category := .warning, className, message }

/-- A diagnostic that leaves the class as it is. -/
def error (code : DiagnosticCode) (className : Option String) (message : String) : Diagnostic :=
  { code, category := .error, className, message }

/-- Whether a diagnostic is an error. -/
def isError (d : Diagnostic) : Bool := d.category == .error

/-- The line that a diagnostic is reported by. -/
def display (d : Diagnostic) : String :=
  let line := d.category.word ++ " " ++ d.code.label ++ ": " ++ d.message
  match d.className with
  | none => line
  | some name => line ++ " (class " ++ name ++ ")"

end Diagnostic

end ComponentLowering.Report
