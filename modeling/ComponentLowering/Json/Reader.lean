/-
# Reading JSON

Readers for the parts of a JSON text.  They move through the text once and refuse it at the first
character that cannot belong to it.
-/
import ComponentLowering.Json.Number
import ComponentLowering.Text.CodePointRanges
import ComponentLowering.Text.HiddenTable
import ComponentLowering.Text.StringValue

namespace ComponentLowering.Json

open ComponentLowering.Text ComponentLowering.Number

/-- A computation that reads a text. -/
abbrev Reader (α : Type) := StateT Cursor (Except Fault) α

namespace Reader

variable {α : Type}

/-- Refuses the text at the current place. -/
def failHere (cause : FaultCause) : Reader α := do
  throw ⟨cause, (← get).offset⟩

/-- Refuses the text at the next byte, if there is one. -/
def failNext (cause : FaultCause) : Reader α := do
  let c ← get
  throw ⟨cause, if c.rest.isEmpty then c.offset else c.offset + 1⟩

/-- White space between the parts of a text. -/
def isBlank (c : Char) : Bool := c == ' ' || c == '\n' || c == '\t' || c == '\r'

/-- Skips white space and looks at the next character. -/
def next? : Reader (Option Char) := do
  let c ← get
  let c := c.skip (c.rest.takeWhile isBlank).length
  set c
  return c.rest.head?

/-- Moves behind the next character. -/
def advance : Reader PUnit :=
  modify fun c => c.skip 1

/-- Reads the rest of a word. -/
def wordRest : List Char → Reader PUnit
  | [] => pure ⟨⟩
  | w :: word => do
    match (← get).rest with
    | [] => failHere (.ended "a value")
    | c :: _ =>
      if c = w then
        advance
        wordRest word
      else failNext (.malformed "expected ident")

/-! ### Strings -/

/-- The character that a letter behind a backslash stands for. -/
def simpleEscape? (c : Char) : Option Char :=
  if c = '"' then some '"'
  else if c = '\\' then some '\\'
  else if c = '/' then some '/'
  else if c = 'b' then some '\x08'
  else if c = 'f' then some '\x0c'
  else if c = 'n' then some '\n'
  else if c = 'r' then some '\r'
  else if c = 't' then some '\t'
  else none

/-- The fault of an escape that should have four hexadecimal digits. -/
def hexFault (offset : Nat) (rest : List Char) : Fault :=
  if byteLength rest < 4 then ⟨.ended "a string", offset + 2 + byteLength rest⟩
  else ⟨.malformed "invalid escape", offset + 6⟩

/-- The characters of a string behind its opening quote.  In a strict string surrogates must come
in pairs, and a control character is refused behind it rather than at it; `lead` is the first half
of a pair whose second half is due. -/
def stringFrom (strict : Bool) (lead : Option Nat) (offset : Nat) :
    List Char → Except Fault (List Char × Cursor)
  | [] => .error ⟨.ended "a string", offset⟩
  | '\\' :: 'u' :: a :: b :: c :: d :: rest =>
    match fourHexValue? [a, b, c, d] with
    | none => .error (hexFault offset (a :: b :: c :: d :: rest))
    | some (n, _) =>
      if !strict then do
        let (cs, stop) ← stringFrom strict none (offset + 6) rest
        return (replacement :: cs, stop)
      else
        match lead with
        | some first =>
          if isTrailSurrogate n then do
            let (cs, stop) ← stringFrom strict none (offset + 6) rest
            return (joinSurrogates first n :: cs, stop)
          else .error ⟨.malformed "lone leading surrogate in hex escape", offset + 6⟩
        | none =>
          if isTrailSurrogate n then
            .error ⟨.malformed "lone leading surrogate in hex escape", offset + 6⟩
          else if isLeadSurrogate n then stringFrom strict (some n) (offset + 6) rest
          else do
            let (cs, stop) ← stringFrom strict none (offset + 6) rest
            return (Char.ofNat n :: cs, stop)
  | '\\' :: rest =>
    match rest with
    | [] => .error ⟨.ended "a string", offset + 1⟩
    | 'u' :: digits => .error (hexFault offset digits)
    | e :: more =>
      if lead.isSome then .error ⟨.malformed "unexpected end of hex escape", offset + 2⟩
      else
        match simpleEscape? e with
        | none => .error ⟨.malformed "invalid escape", offset + 2⟩
        | some c => do
          let (cs, stop) ← stringFrom strict none (offset + 2) more
          return (c :: cs, stop)
  | c :: rest =>
    if lead.isSome then .error ⟨.malformed "unexpected end of hex escape", offset + 1⟩
    else if c = '"' then .ok ([], ⟨rest, offset + 1⟩)
    else if c.toNat < 0x20 then
      .error ⟨.malformed "control character (\\u0000-\\u001F) found while parsing a string",
        if strict then offset + 1 else offset⟩
    else do
      let (cs, stop) ← stringFrom strict none (offset + byteWidth c) rest
      return (c :: cs, stop)

/-- The rest of a string behind its opening quote. -/
def stringRest (strict : Bool) : Reader String := do
  let c ← get
  match stringFrom strict none c.offset c.rest with
  | .error fault => throw fault
  | .ok (cs, stop) =>
    set stop
    return String.ofList cs

/-! ### Values that are not wanted -/

/-- Characters that a report does not show as they are. -/
def isHidden (c : Char) : Bool :=
  c.toNat < 0x20 || c.toNat == 0x7F || (0x80 ≤ c.toNat && inRanges hiddenRanges c.toNat)

/-- A character in the words of a report. -/
def shownChar (c : Char) : List Char :=
  if c = '\x00' then ['\\', '0']
  else if c = '\t' then ['\\', 't']
  else if c = '\r' then ['\\', 'r']
  else if c = '\n' then ['\\', 'n']
  else if c = '"' then ['\\', '"']
  else if c = '\\' then ['\\', '\\']
  else if isHidden c then '\\' :: 'u' :: '\x7b' :: Nat.toDigits 16 c.toNat ++ ['\x7d']
  else [c]

/-- A string in the words of a report. -/
def shownString (s : String) : String :=
  String.ofList ('"' :: s.toList.flatMap shownChar ++ ['"'])

/-- Refuses the value at the current place, naming what it is and what is expected. -/
def refuse (expected : String) : Reader α := do
  let mismatch (found : String) : FaultCause :=
    .mismatch ("invalid type: " ++ found ++ ", expected " ++ expected)
  let c ← get
  match c.rest with
  | 'n' :: _ =>
    advance
    wordRest "ull".toList
    failHere (mismatch "null")
  | 't' :: _ =>
    advance
    wordRest "rue".toList
    failHere (mismatch "boolean `true`")
  | 'f' :: _ =>
    advance
    wordRest "alse".toList
    failHere (mismatch "boolean `false`")
  | '"' :: _ =>
    advance
    let s ← stringRest true
    failHere (mismatch ("string " ++ shownString s))
  | '[' :: _ => failHere (mismatch "sequence")
  | '\x7b' :: _ => failHere (mismatch "map")
  | '-' :: rest =>
    match numberFrom false ⟨rest, c.offset + 1⟩ with
    | .error fault => throw fault
    | .ok (n, stop) =>
      set stop
      failHere (mismatch n.describe)
  | d :: _ =>
    if isDigit d then
      match numberFrom true c with
      | .error fault => throw fault
      | .ok (n, stop) =>
        set stop
        failHere (mismatch n.describe)
    else failNext (.malformed "expected value")
  | [] => failNext (.malformed "expected value")

/-! ### Values that do not matter -/

/-- Skips the exponent of a number, behind its letter. -/
def skipExponent : Reader PUnit := do
  match (← get).rest with
  | '+' :: _ | '-' :: _ => advance
  | _ => pure ⟨⟩
  let c ← get
  if (c.rest.head?.map isDigit).getD false then set (c.skip (c.rest.takeWhile isDigit).length)
  else failNext (.malformed "invalid number")

/-- Skips an exponent, if there is one. -/
def skipExponent? : Reader PUnit := do
  match (← get).rest with
  | 'e' :: _ | 'E' :: _ =>
    advance
    skipExponent
  | _ => pure ⟨⟩

/-- Skips a number behind its sign. -/
def skipNumber : Reader PUnit := do
  let c ← get
  match c.rest with
  | '0' :: rest =>
    advance
    if (rest.head?.map isDigit).getD false then failNext (.malformed "invalid number")
  | d :: _ =>
    if isDigit d then set (c.skip (c.rest.takeWhile isDigit).length)
    else failNext (.malformed "invalid number")
  | [] => failHere (.malformed "invalid number")
  match (← get).rest with
  | '.' :: _ =>
    advance
    let c ← get
    if (c.rest.head?.map isDigit).getD false then
      set (c.skip (c.rest.takeWhile isDigit).length)
      skipExponent?
    else failNext (.malformed "invalid number")
  | _ => skipExponent?

/-- Reads the colon behind a key. -/
def colon : Reader PUnit := do
  match ← next? with
  | some ':' => advance
  | some _ => failNext (.malformed "expected `:`")
  | none => failNext (.ended "an object")

mutual

/-- Skips a value. -/
def skipValue : Nat → Reader PUnit
  | 0 => failHere (.malformed "recursion limit exceeded")
  | fuel + 1 => do
    match ← next? with
    | none => failNext (.ended "a value")
    | some 'n' =>
      advance
      wordRest "ull".toList
    | some 't' =>
      advance
      wordRest "rue".toList
    | some 'f' =>
      advance
      wordRest "alse".toList
    | some '-' =>
      advance
      skipNumber
    | some '"' =>
      advance
      let _ ← stringRest false
    | some '[' =>
      advance
      match ← next? with
      | some ']' => advance
      | none => failHere (.ended "a list")
      | some _ => skipItems fuel
    | some '\x7b' =>
      advance
      match ← next? with
      | some '\x7d' => advance
      | none => failHere (.ended "an object")
      | some _ => skipMembers fuel
    | some d => if isDigit d then skipNumber else failNext (.malformed "expected value")

/-- Skips the items of a list up to its end. -/
def skipItems : Nat → Reader PUnit
  | 0 => failHere (.malformed "recursion limit exceeded")
  | fuel + 1 => do
    skipValue fuel
    match ← next? with
    | some ',' =>
      advance
      skipItems fuel
    | some ']' => advance
    | some _ => failNext (.malformed "expected `,` or `]`")
    | none => failHere (.ended "a list")

/-- Skips the members of an object up to its end. -/
def skipMembers : Nat → Reader PUnit
  | 0 => failHere (.malformed "recursion limit exceeded")
  | fuel + 1 => do
    match ← next? with
    | some '"' =>
      advance
      let _ ← stringRest false
      colon
      skipValue fuel
      match ← next? with
      | some ',' =>
        advance
        skipMembers fuel
      | some '\x7d' => advance
      | some _ => failNext (.malformed "expected `,` or `\x7d`")
      | none => failHere (.ended "an object")
    | some _ => failNext (.malformed "key must be a string")
    | none => failNext (.ended "an object")

end

/-- Skips a value of any shape. -/
def ignored : Reader PUnit := do skipValue (2 * (← get).rest.length + 2)

/-! ### Values that are wanted -/

/-- A string. -/
def string (expected : String) : Reader String := do
  match ← next? with
  | some '"' =>
    advance
    stringRest true
  | some _ => refuse expected
  | none => failNext (.ended "a value")

/-- The value that a word stands for. -/
def choose (words : List (String × α)) (word : String) : Reader α :=
  match words.find? (·.1 == word) with
  | some (_, value) => pure value
  | none =>
    failHere (.mismatch ("unknown variant `" ++ word ++ "`, expected "
      ++ " or ".intercalate (words.map fun (w, _) => "`" ++ w ++ "`")))

/-- A null. -/
def unit : Reader PUnit := do
  match ← next? with
  | some 'n' =>
    advance
    wordRest "ull".toList
  | some _ => refuse "unit"
  | none => failNext (.ended "a value")

/-- One of several words, as a string or as the only key of an object that holds a null. -/
def oneOf (words : List (String × α)) : Reader α := do
  match ← next? with
  | some '"' =>
    advance
    choose words (← stringRest true)
  | some '\x7b' =>
    advance
    let key ← do
      match ← next? with
      | some '"' =>
        advance
        stringRest true
      | some _ => failNext (.malformed "key must be a string")
      | none => failNext (.ended "a value")
    let value ← choose words key
    colon
    unit
    match ← next? with
    | some '\x7d' =>
      advance
      return value
    | some _ => failHere (.malformed "expected value")
    | none => failHere (.ended "an object")
  | some _ => failNext (.malformed "expected value")
  | none => failNext (.ended "a value")

/-- The key of the next member of an object, if there is one. -/
def nextKey? (isFirst : Bool) : Reader (Option String) := do
  let found ← do
    match ← next? with
    | none => failNext (.ended "an object")
    | some '\x7d' => return none
    | some c =>
      if isFirst then pure (some c)
      else if c = ',' then
        advance
        next?
      else failNext (.malformed "expected `,` or `\x7d`")
  match found with
  | some '"' =>
    advance
    return some (← stringRest true)
  | some '\x7d' => failNext (.malformed "trailing comma")
  | some _ => failNext (.malformed "key must be a string")
  | none => failNext (.ended "a value")

/-- Moves to the next item of a list, if there is one. -/
def nextItem? (isFirst : Bool) : Reader Bool := do
  match ← next? with
  | none => failNext (.ended "a list")
  | some ']' => return false
  | some c =>
    if isFirst then return true
    else if c = ',' then
      advance
      match ← next? with
      | some ']' => failNext (.malformed "trailing comma")
      | some _ => return true
      | none => failNext (.ended "a value")
    else failNext (.malformed "expected `,` or `]`")

/-- The end of a list of which no further items are wanted. -/
def listEnd : Reader PUnit := do
  match ← next? with
  | some ']' => advance
  | some ',' =>
    advance
    match ← next? with
    | some ']' => failNext (.malformed "trailing comma")
    | _ => failNext (.malformed "trailing characters")
  | some _ => failNext (.malformed "trailing characters")
  | none => failNext (.ended "a list")

/-- The end of the text. -/
def finished : Reader PUnit := do
  match ← next? with
  | none => pure ⟨⟩
  | some _ => failNext (.malformed "trailing characters")

/-- Refuses a key that has been read before. -/
def duplicate (key : String) : Reader α := do
  if (← next?) == some '\x7d' then advance
  failHere (.mismatch ("duplicate field `" ++ key ++ "`"))

end Reader

end ComponentLowering.Json
