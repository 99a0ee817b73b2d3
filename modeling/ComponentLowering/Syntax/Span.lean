/-
# Source positions

A position is a byte offset into the UTF-8 text of a module.  Syntax that was made up by the
compiler has no place in that text and carries the empty span at offset zero.
-/
import ComponentLowering.Text.Cursor

namespace ComponentLowering.Syntax

open ComponentLowering.Text

/-- A half-open range of byte offsets. -/
structure Span where
  start : Nat
  stop : Nat
deriving DecidableEq, Repr, Inhabited

namespace Span

/-- The span of syntax that stands nowhere in the text. -/
def detached : Span := ⟨0, 0⟩

/-- The empty span at an offset. -/
def point (offset : Nat) : Span := ⟨offset, offset⟩

end Span

/-- An identifier together with its place. -/
structure Ident where
  span : Span
  name : String
deriving DecidableEq, Repr, Inhabited

/-- The characters that start inside a span, given the characters of the whole text. -/
def sliceFrom (span : Span) : Nat → List Char → List Char
  | _, [] => []
  | offset, c :: rest =>
    if span.stop ≤ offset then []
    else
      let tail := sliceFrom span (offset + byteWidth c) rest
      if span.start ≤ offset then c :: tail else tail

/-- The text that a span covers. -/
def Span.text (span : Span) (source : List Char) : String :=
  String.ofList (sliceFrom span 0 source)

end ComponentLowering.Syntax
