/-
# Reading tokens

Scanners for the lexical elements.  Each takes the text that is left, and returns what it read
and the cursor behind it; a bound on the length of the text serves as fuel.
-/
import ComponentLowering.Syntax.Comment
import ComponentLowering.Syntax.Token
import ComponentLowering.Text.Identifier

namespace ComponentLowering.Syntax

open ComponentLowering.Text ComponentLowering.Number

/-- A text that is not a module of the language, and where reading it stopped. -/
structure SyntaxError where
  offset : Nat
deriving DecidableEq, Repr, Inhabited

/-- The characters that end a line. -/
def isLineEnd (c : Char) : Bool :=
  c == '\n' || c == '\r' || c == '\u2028' || c == '\u2029'

/-- White space that does not end a line. -/
def isSpace (c : Char) : Bool :=
  let n := c.toNat
  c == ' ' || c == '\t' || n == 0x0B || n == 0x0C || n == 0x85 || n == 0xA0 || n == 0xFEFF
    || n == 0x1680 || (0x2000 ≤ n && n ≤ 0x200B) || n == 0x202F || n == 0x205F || n == 0x3000

/-! ### White space and comments -/

/-- The cursor at the end of the current line. -/
def lineRest : Nat → Cursor → Cursor
  | fuel + 1, ⟨c :: rest, offset⟩ =>
    if isLineEnd c then ⟨c :: rest, offset⟩ else lineRest fuel ⟨rest, offset + byteWidth c⟩
  | _, cursor => cursor

/-- The cursor behind the end of a block comment, and whether the comment holds a line end. -/
def blockRest : Nat → Bool → Cursor → Option (Cursor × Bool)
  | fuel + 1, broken, ⟨c :: rest, offset⟩ =>
    match c, rest with
    | '*', '/' :: rest => some (⟨rest, offset + 2⟩, broken)
    | _, _ => blockRest fuel (broken || isLineEnd c) ⟨rest, offset + byteWidth c⟩
  | _, _, _ => none

/-- What lies between two tokens. -/
structure Trivia where
  cursor : Cursor
  gap : CommentGap
  newline : Bool
deriving Inhabited

/-- Skips a comment that goes on to the end of its line. -/
def Trivia.skipLine (fuel : Nat) (t : Trivia) : Trivia :=
  let stop := lineRest fuel t.cursor
  let text := (t.cursor.rest.take (t.cursor.rest.length - stop.rest.length)).drop 2
  { t with cursor := stop, gap := t.gap.comment .line ⟨t.cursor.offset, stop.offset⟩ text }

/-- Whether a mark that begins or ends a comment in markup stands here.  A script takes it for the
beginning of a line comment; the ending mark has to be the first on its line. -/
def Trivia.atMarkupComment (t : Trivia) : Bool :=
  match t.cursor.rest with
  | '<' :: '!' :: '-' :: '-' :: _ => true
  | '-' :: '-' :: '>' :: _ => t.newline || t.gap.sawNewline
  | _ => false

/-- Skips white space and comments.  The line and paragraph separators of Unicode begin a new line
for the grammar, but comments stay where they are. -/
def skipTrivia (script : Bool) : Nat → Trivia → Except SyntaxError Trivia
  | 0, t => .error ⟨t.cursor.offset⟩
  | fuel + 1, t =>
    match t.cursor.rest with
    | [] => .ok t
    | '/' :: '/' :: _ => skipTrivia script fuel (t.skipLine fuel)
    | '/' :: '*' :: rest =>
      match blockRest fuel false ⟨rest, t.cursor.offset + 2⟩ with
      | none => .error ⟨t.cursor.offset⟩
      | some (stop, broken) =>
        let text := rest.take (rest.length - stop.rest.length - 2)
        let gap := t.gap.comment .block ⟨t.cursor.offset, stop.offset⟩ text
        skipTrivia script fuel { cursor := stop, gap, newline := t.newline || broken }
    | c :: rest =>
      let cursor : Cursor := ⟨rest, t.cursor.offset + byteWidth c⟩
      if c == '\n' || c == '\r' then
        skipTrivia script fuel { cursor, gap := t.gap.newline, newline := true }
      else if isLineEnd c then skipTrivia script fuel { t with cursor, newline := true }
      else if isSpace c then skipTrivia script fuel { t with cursor }
      else if script && t.atMarkupComment then skipTrivia script fuel (t.skipLine fuel)
      else .ok t

/-! ### Escapes -/

/-- Reads the hexadecimal digits in front of a closing brace. -/
def braceHex : Nat → Nat → List Char → Option (Nat × List Char)
  | fuel + 1, n, c :: rest =>
    match hexValue? c with
    | some d => if n * 16 + d < 0x110000 then braceHex fuel (n * 16 + d) rest else none
    | none => if c = '}' then some (n, rest) else none
  | _, _, _ => none

/-- Reads what follows `\u`: four hexadecimal digits, or digits in braces. -/
def unicodeEscape? (fuel : Nat) : List Char → Option (Nat × List Char)
  | '{' :: '}' :: _ => none
  | '{' :: rest => braceHex fuel 0 rest
  | cs => fourHexValue? cs

/-- The element that the text behind `\u` stands for.  Two surrogates in a row make one character
when both are written with four digits. -/
def unicodeElement? (fuel : Nat) (cs : List Char) : Option (StringElement × List Char) := do
  let (n, rest) ← unicodeEscape? fuel cs
  match cs.head? == some '{', rest with
  | false, '\\' :: 'u' :: more =>
    match fourHexValue? more with
    | some (m, after) =>
      if isLeadSurrogate n && isTrailSurrogate m then some (.char (joinSurrogates n m), after)
      else some (.ofNat n, rest)
    | none => some (.ofNat n, rest)
  | _, _ => some (.ofNat n, rest)

/-- The value of an octal digit. -/
def octalValue? (c : Char) : Option Nat :=
  if '0' ≤ c ∧ c ≤ '7' then some (c.toNat - 48) else none

/-- Reads an octal escape of up to three digits, at most 255. -/
def octalEscape (first : Nat) : List Char → Nat × List Char
  | a :: b :: rest =>
    match octalValue? a with
    | none => (first, a :: b :: rest)
    | some x =>
      match octalValue? b with
      | some y => if first < 4 then (first * 64 + x * 8 + y, rest) else (first * 8 + x, b :: rest)
      | none => (first * 8 + x, b :: rest)
  | [a] =>
    match octalValue? a with
    | none => (first, [a])
    | some x => (first * 8 + x, [])
  | [] => (first, [])

/-- The elements that an escape stands for, given the text behind the backslash.  The octal
escapes are those of string literals. -/
def escape? (fuel : Nat) (allowOctal : Bool) (cursor : Cursor) :
    Option (List StringElement × Cursor) :=
  match cursor.rest with
  | [] => none
  | 'n' :: _ => some ([.char '\n'], cursor.skip 1)
  | 't' :: _ => some ([.char '\t'], cursor.skip 1)
  | 'r' :: _ => some ([.char '\r'], cursor.skip 1)
  | 'b' :: _ => some ([.char '\x08'], cursor.skip 1)
  | 'v' :: _ => some ([.char '\x0B'], cursor.skip 1)
  | 'f' :: _ => some ([.char '\x0C'], cursor.skip 1)
  | '\r' :: '\n' :: _ => some ([], cursor.skip 2)
  | 'x' :: a :: b :: _ =>
    match hexValue? a, hexValue? b with
    | some x, some y => some ([.char (Char.ofNat (x * 16 + y))], cursor.skip 3)
    | _, _ => none
  | 'x' :: _ => none
  | 'u' :: rest =>
    match unicodeElement? fuel rest with
    | some (element, rest) => some ([element], cursor.forward rest)
    | none => none
  | c :: rest =>
    if isLineEnd c then some ([], cursor.skip 1)
    else
      match octalValue? c with
      | some d =>
        if allowOctal then
          let (n, rest) := octalEscape d rest
          some ([.char (Char.ofNat n)], cursor.forward rest)
        else if d = 0 ∧ ¬ (rest.head?.any Char.isDigit) then
          some ([.char '\x00'], cursor.skip 1)
        else none
      | none =>
        if !allowOctal && (c == '8' || c == '9') then none
        else some ([.char c], cursor.skip 1)

/-! ### Words -/

/-- The rest of a word, latest character first, and whether it holds escapes. -/
def wordRest : Nat → List Char → Bool → Cursor → Option (List Char × Bool × Cursor)
  | fuel + 1, acc, escaped, cursor =>
    match cursor.rest with
    | '\\' :: 'u' :: rest =>
      match unicodeEscape? fuel rest with
      | some (n, rest) =>
        let c := Char.ofNat n
        if (if acc.isEmpty then isIdentifierStart c else isIdentifierPart c) then
          wordRest fuel (c :: acc) true (cursor.forward rest)
        else none
      | none => none
    | '\\' :: _ => none
    | c :: rest =>
      if isIdentifierPart c then
        wordRest fuel (c :: acc) escaped ⟨rest, cursor.offset + byteWidth c⟩
      else some (acc, escaped, cursor)
    | [] => some (acc, escaped, cursor)
  | 0, acc, escaped, cursor => some (acc, escaped, cursor)

/-! ### Strings and templates -/

/-- The rest of a string literal, latest element first. -/
def stringRest (quote : Char) :
    Nat → List StringElement → Cursor → Option (List StringElement × Cursor)
  | fuel + 1, acc, cursor =>
    match cursor.rest with
    | [] => none
    | c :: rest =>
      let next : Cursor := ⟨rest, cursor.offset + byteWidth c⟩
      if c = quote then some (acc, next)
      else if c = '\\' then
        match escape? fuel true next with
        | some (units, next) => stringRest quote fuel (units.reverse ++ acc) next
        | none => none
      else if c = '\n' ∨ c = '\r' then none
      else stringRest quote fuel (.char c :: acc) next
  | 0, _, _ => none

/-- What a template chunk reads as so far: its characters and its value, latest first.  The value
is lost at an escape that is not valid. -/
structure ChunkText where
  raw : List Char
  cooked : Option (List StringElement)
deriving Inhabited

/-- Adds elements to the value of a chunk. -/
def ChunkText.addUnits (t : ChunkText) (units : List StringElement) : ChunkText :=
  { t with cooked := t.cooked.map (units.reverse ++ ·) }

/-- The rest of a template chunk, up to `${` or the closing backquote; the flag tells the latter.
In the value a carriage return, alone or before a line feed, counts as a line feed. -/
def chunkRest : Nat → ChunkText → Cursor → Option (ChunkText × Bool × Cursor)
  | fuel + 1, acc, cursor =>
    match cursor.rest with
    | [] => none
    | '\x60' :: _ => some (acc, true, cursor.skip 1)
    | '$' :: '{' :: _ => some (acc, false, cursor.skip 2)
    | '\r' :: '\n' :: _ =>
      chunkRest fuel ({ acc with raw := '\n' :: '\r' :: acc.raw }.addUnits [.char '\n'])
        (cursor.skip 2)
    | '\r' :: _ =>
      chunkRest fuel ({ acc with raw := '\r' :: acc.raw }.addUnits [.char '\n']) (cursor.skip 1)
    | '\\' :: rest =>
      let next : Cursor := ⟨rest, cursor.offset + 1⟩
      match escape? fuel false next with
      | some (units, stop) =>
        let text := next.rest.take (next.rest.length - stop.rest.length)
        chunkRest fuel ({ acc with raw := text.reverse ++ '\\' :: acc.raw }.addUnits units) stop
      | none =>
        match rest with
        | [] => none
        | c :: _ => chunkRest fuel ⟨c :: '\\' :: acc.raw, none⟩ (next.skip 1)
    | c :: rest =>
      chunkRest fuel ({ acc with raw := c :: acc.raw }.addUnits [.char c])
        ⟨rest, cursor.offset + byteWidth c⟩
  | 0, _, _ => none

/-- A text in which every line ends in a line feed. -/
def unixLines : List Char → List Char
  | '\r' :: '\n' :: rest => '\n' :: unixLines rest
  | '\r' :: rest => '\n' :: unixLines rest
  | c :: rest => c :: unixLines rest
  | [] => []

/-- The template token whose chunk begins at a cursor.  A chunk without a value keeps its raw text
as it stands; in any other all lines end alike. -/
def templateFrom (fuel start : Nat) (cursor : Cursor) : Except SyntaxError (Lexeme × Cursor) :=
  match chunkRest fuel ⟨[], some []⟩ cursor with
  | none => .error ⟨start⟩
  | some (text, closed, stop) =>
    let chunk : TemplateChunk :=
      { span := ⟨cursor.offset, stop.offset - (if closed then 1 else 2)⟩
        raw := String.ofList (text.cooked.elim text.raw.reverse fun _ => unixLines text.raw.reverse)
        cooked := text.cooked.map fun units =>
          (StringValue.ofUnits units.reverse).text }
    .ok (.template chunk closed, stop)

/-! ### Numbers -/

/-- Digits of a base, with single underscores between them. -/
def digitRun (base : Nat) : Nat → List Char → Cursor → Option (List Char × Cursor)
  | fuel + 1, acc, cursor =>
    match cursor.rest with
    | '_' :: rest =>
      match acc, rest with
      | _ :: _, c :: _ =>
        if (hexValue? c).any (· < base) then digitRun base fuel acc (cursor.skip 1) else none
      | _, _ => none
    | c :: _ =>
      if (hexValue? c).any (· < base) then digitRun base fuel (c :: acc) (cursor.skip 1)
      else some (acc.reverse, cursor)
    | [] => some (acc.reverse, cursor)
  | 0, acc, cursor => some (acc.reverse, cursor)

/-- The value of a list of digits. -/
def digitsValue (base : Nat) (ds : List Char) : Nat :=
  ds.foldl (fun n c => n * base + (hexValue? c).getD 0) 0

/-- The longest run of digits in a base other than ten whose value has at most 64 bits. -/
def wordDigits (base : Nat) : Nat :=
  if base = 16 then 16 else if base = 8 then 21 else 64

/-- The number that digits in a base other than ten spell.  A long run is rounded behind each
digit, a short one once. -/
def radixValue (base : Nat) (ds : List Char) : Binary64 :=
  let value := digitsValue base ds
  if ds.length ≤ wordDigits base then .ofNat value
  else
    ds.foldl (fun n c => n.shiftIn base ((hexValue? c).getD 0)) (.finite 0 0)

/-- A whole number in a base other than ten. -/
def radixNumber (base fuel : Nat) (cursor : Cursor) : Option (Lexeme × Cursor) := do
  let (ds, stop) ← digitRun base fuel [] cursor
  if ds.isEmpty then none
  else
    match stop.rest with
    | 'n' :: _ => some (.bigint (toString (digitsValue base ds)), stop.skip 1)
    | _ => some (.number (radixValue base ds), stop)

/-- The exponent of a decimal number, zero when there is none. -/
def exponentPart (fuel : Nat) (cursor : Cursor) : Option (Int × Cursor) :=
  let read (sign : Int) (cursor : Cursor) : Option (Int × Cursor) := do
    let (ds, stop) ← digitRun 10 fuel [] cursor
    if ds.isEmpty then none else some (sign * digitsValue 10 ds, stop)
  match cursor.rest with
  | e :: '+' :: _ => if e = 'e' ∨ e = 'E' then read 1 (cursor.skip 2) else some (0, cursor)
  | e :: '-' :: _ => if e = 'e' ∨ e = 'E' then read (-1) (cursor.skip 2) else some (0, cursor)
  | e :: _ => if e = 'e' ∨ e = 'E' then read 1 (cursor.skip 1) else some (0, cursor)
  | [] => some (0, cursor)

/-- A decimal number whose whole part was read. -/
def decimalFrom (fuel : Nat) (whole : List Char) (cursor : Cursor) : Option (Lexeme × Cursor) := do
  let (fraction, stop) ← match cursor.rest with
    | '.' :: _ => digitRun 10 fuel [] (cursor.skip 1)
    | _ => some ([], cursor)
  let (exponent, stop) ← exponentPart fuel stop
  let value := digitsValue 10 (whole ++ fraction)
  some (.number (.ofDecimal value (exponent - fraction.length)), stop)

/-- A numeric literal.  Behind a leading zero other digits may follow, which are octal ones unless
an eight or a nine is among them. -/
def numberAt (fuel : Nat) (cursor : Cursor) : Option (Lexeme × Cursor) :=
  match cursor.rest with
  | '0' :: m :: rest =>
    if m = 'x' ∨ m = 'X' then radixNumber 16 fuel (cursor.skip 2)
    else if m = 'o' ∨ m = 'O' then radixNumber 8 fuel (cursor.skip 2)
    else if m = 'b' ∨ m = 'B' then radixNumber 2 fuel (cursor.skip 2)
    else if m = 'n' then some (.bigint "0", cursor.skip 2)
    else if m.isDigit then
      let ds := (m :: rest).takeWhile Char.isDigit
      let stop := cursor.skip (ds.length + 1)
      if ds.all fun c => (octalValue? c).isSome then
        some (.number (radixValue 8 ds), stop)
      else if stop.rest.head? = some 'E' then none
      else decimalFrom fuel ds stop
    else decimalFrom fuel ['0'] (cursor.skip 1)
  | '.' :: _ => decimalFrom fuel [] cursor
  | _ => do
    let (whole, stop) ← digitRun 10 fuel [] cursor
    match stop.rest with
    | 'n' :: _ => some (.bigint (String.ofList whole), stop.skip 1)
    | _ => decimalFrom fuel whole stop

/-! ### Tokens -/

/-- The longest punctuation mark that a text begins with. -/
def markAt? (cs : List Char) : Option String :=
  marks.find? fun m => m.toList.isPrefixOf cs

/-- The content of the token at a cursor. -/
def lexemeAt (fuel : Nat) (cursor : Cursor) : Except SyntaxError (Lexeme × Cursor) :=
  let failure : Except SyntaxError (Lexeme × Cursor) := .error ⟨cursor.offset⟩
  let word (cursor : Cursor) (make : String → Bool → Lexeme) :=
    match wordRest fuel [] false cursor with
    | some (acc, escaped, stop) =>
      if acc.isEmpty then failure else .ok (make (String.ofList acc.reverse) escaped, stop)
    | none => failure
  let number :=
    match numberAt fuel cursor with
    | none => failure
    | some (lexeme, stop) =>
      if stop.rest.head?.any (fun c => isIdentifierPart c || c == '\\') then failure
      else .ok (lexeme, stop)
  match cursor.rest with
  | [] => .ok (.endOfText, cursor)
  | c :: rest =>
    let next : Cursor := ⟨rest, cursor.offset + byteWidth c⟩
    if c = '"' ∨ c = '\'' then
      match stringRest c fuel [] next with
      | some (units, stop) => .ok (.string (.ofUnits units.reverse), stop)
      | none => failure
    else if c = '\x60' then templateFrom fuel cursor.offset next
    else if c.isDigit then number
    else if c = '.' ∧ rest.head?.any Char.isDigit then number
    else if c = '#' then
      if rest.head?.any (fun d => isIdentifierStart d || d == '\\') then
        word next fun name _ => .privateName name
      else failure
    else if isIdentifierStart c ∨ c = '\\' then word cursor .word
    else
      match markAt? cursor.rest with
      | none => failure
      | some mark =>
        let stop := cursor.skip mark.length
        -- a conditional operator in front of a number such as `a ?.5 : b`
        if mark = "?." ∧ stop.rest.head?.any Char.isDigit then .ok (.mark "?", cursor.skip 1)
        else .ok (.mark mark, stop)

/-- The rest of a regular expression body, latest character first. -/
def regexBody : Nat → Bool → List Char → Cursor → Option (List Char × Cursor)
  | fuel + 1, inClass, acc, cursor =>
    match cursor.rest with
    | [] => none
    | c :: rest =>
      let next : Cursor := ⟨rest, cursor.offset + byteWidth c⟩
      if isLineEnd c then none
      else if c = '/' ∧ ¬ inClass then some (acc, next)
      else if c = '\\' then
        match rest with
        | [] => none
        | d :: rest =>
          if isLineEnd d then none
          else regexBody fuel inClass (d :: c :: acc) ⟨rest, next.offset + byteWidth d⟩
      else
        let inClass := if c = '[' then true else if c = ']' then false else inClass
        regexBody fuel inClass (c :: acc) next
  | 0, _, _, _ => none

/-- The flags of regular expressions, in alphabetical order. -/
def regexFlags : List Char := "dgimsuvy".toList

/-- Whether regular expression flags are known ones, each at most once. -/
def knownFlags : List Char → Bool
  | [] => true
  | c :: rest => regexFlags.contains c && !rest.contains c && knownFlags rest

/-- Whether flags may stand behind a regular expression; the two Unicode modes exclude each
other. -/
def validFlags (flags : List Char) : Bool :=
  knownFlags flags && !(flags.contains 'u' && flags.contains 'v')

/-- The regular expression whose opening slash was read: its pattern, its flags in alphabetical
order and its end. -/
def regexFrom (fuel : Nat) (cursor : Cursor) : Option (String × String × Cursor) := do
  let (body, stop) ← regexBody fuel false [] cursor
  let (flags, escaped, stop) ← wordRest fuel ['a'] false stop
  let flags := flags.reverse.drop 1
  if escaped || !validFlags flags then none
  else
    let sorted := regexFlags.filter flags.contains
    some (String.ofList body.reverse, String.ofList sorted, stop)

end ComponentLowering.Syntax
