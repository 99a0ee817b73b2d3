/-
# Printing modules

The text of a module: the comments at its top, the interpreter line, the directives, the
statements, and the comments at its end.
-/
import ComponentLowering.Syntax.Module
import ComponentLowering.Syntax.Printer.Nodes

namespace ComponentLowering.Syntax

namespace Writing

/-- The interpreter line of a module. -/
def hashbang : Option String → Writing
  | none => pure ⟨⟩
  | some line => do
    text "#!"
    text line
    newline

/-- A whole module. -/
def module (m : Module) : Writing := do
  commentsAt 0
  hashbang m.hashbang
  m.directives.forM directive
  bodyStmts .none m.directives.isEmpty m.body
  commentsAt m.stop

end Writing

/-- The text of a module. -/
def Module.print (m : Module) : String :=
  let page := ((Writing.module m).run (Page.blank m.source m.comments m.dialect.markup)).2
  String.ofList page.text

end ComponentLowering.Syntax
