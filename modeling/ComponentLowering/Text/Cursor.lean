/-
# Places in a text

Offsets are counted in bytes of the UTF-8 form of a text.
-/

namespace ComponentLowering.Text

/-- The number of bytes that a character takes in UTF-8. -/
def byteWidth (c : Char) : Nat :=
  if c.val < 0x80 then 1 else if c.val < 0x800 then 2 else if c.val < 0x10000 then 3 else 4

/-- The number of bytes that a text takes in UTF-8. -/
def byteLength : List Char → Nat
  | [] => 0
  | c :: rest => byteWidth c + byteLength rest

/-- A place in a text: what is left to read and its byte offset. -/
structure Cursor where
  rest : List Char
  offset : Nat
deriving Inhabited

namespace Cursor

/-- The cursor behind the next `n` characters. -/
def skip : Nat → Cursor → Cursor
  | n + 1, ⟨c :: rest, offset⟩ => skip n ⟨rest, offset + byteWidth c⟩
  | _, cursor => cursor

/-- The cursor at a later part of the text, all characters passed being ASCII. -/
def forward (cursor : Cursor) (rest : List Char) : Cursor :=
  ⟨rest, cursor.offset + (cursor.rest.length - rest.length)⟩

end Cursor

end ComponentLowering.Text
