/-
# Patterns

The patterns by which many files are named at once.  In a name, `?` stands for a character, `*` for
any text and brackets for a character of a set; between slashes, `**` stands for any directories.
-/
import ComponentLowering.Batch.Path

namespace ComponentLowering.Batch

/-- Characters from a first to a last one. -/
structure CharRange where
  first : Char
  last : Char
deriving DecidableEq, Repr, Inhabited

/-- Whether a character is in a range. -/
def CharRange.contains (r : CharRange) (c : Char) : Bool := r.first ≤ c && c ≤ r.last

/-- A piece of a pattern. -/
inductive PatternToken where
  | char (c : Char)
  | anyChar
  | anyText
  | anyDirectories
  | oneOf (ranges : List CharRange)
  | noneOf (ranges : List CharRange)
deriving DecidableEq, Repr, Inhabited

/-- What is wrong with a pattern. -/
inductive PatternFault where
  | wildcards
  | directories
  | range
deriving DecidableEq, Repr, Inhabited

/-- Where and how a pattern is wrong. -/
structure PatternError where
  position : Nat
  fault : PatternFault
deriving DecidableEq, Repr, Inhabited

/-- The words for what is wrong with a pattern. -/
def PatternFault.message : PatternFault → String
  | wildcards => "wildcards are either regular `*` or recursive `**`"
  | directories => "recursive wildcards must form a single path component"
  | range => "invalid range pattern"

/-- The line that a wrong pattern is reported by. -/
def PatternError.display (e : PatternError) : String :=
  "Pattern syntax error near position " ++ String.ofList (Nat.toDigits 10 e.position) ++ ": "
    ++ e.fault.message

namespace Pattern

/-- The characters that brackets hold. -/
def ranges : List Char → List CharRange
  | first :: '-' :: last :: rest => ⟨first, last⟩ :: ranges rest
  | c :: rest => ⟨c, c⟩ :: ranges rest
  | [] => []

/-- A bracket pattern, from behind the opening bracket, and the number of characters it takes.  The
first character of the set may be a closing bracket. -/
def bracket? : List Char → Option (PatternToken × Nat)
  | '!' :: first :: rest =>
    let more := rest.takeWhile (· != ']')
    if more.length < rest.length then some (.noneOf (ranges (first :: more)), more.length + 3)
    else none
  | ['!'] => none
  | first :: rest =>
    let more := rest.takeWhile (· != ']')
    if more.length < rest.length then some (.oneOf (ranges (first :: more)), more.length + 2)
    else none
  | [] => none

/-- The pieces of a pattern, from a position on; `fuel` bounds their number. -/
def tokensFrom (fuel position : Nat) (before : Option Char) (text : List Char) :
    Except PatternError (List PatternToken) :=
  match fuel, text with
  | 0, _ => .ok []
  | _, [] => .ok []
  | fuel + 1, '?' :: rest => do
    return .anyChar :: (← tokensFrom fuel (position + 1) (some '?') rest)
  | fuel + 1, '*' :: rest => do
    let stars := rest.takeWhile (· == '*')
    let after := rest.drop stars.length
    match stars.length with
    | 0 => return .anyText :: (← tokensFrom fuel (position + 1) (some '*') after)
    | 1 =>
      if position ≠ 0 ∧ before ≠ some '/' then throw ⟨position - 1, .directories⟩
      match after with
      | [] => return [.anyDirectories]
      | '/' :: rest =>
        return .anyDirectories :: (← tokensFrom fuel (position + 3) (some '/') rest)
      | _ => throw ⟨position + 2, .directories⟩
    | _ => throw ⟨position + 2, .wildcards⟩
  | fuel + 1, '[' :: rest =>
    match bracket? rest with
    | none => .error ⟨position, .range⟩
    | some (token, taken) => do
      return token :: (← tokensFrom fuel (position + 1 + taken) (some ']') (rest.drop taken))
  | fuel + 1, c :: rest => do
    return .char c :: (← tokensFrom fuel (position + 1) (some c) rest)

/-- The pieces of a pattern. -/
def tokens (text : List Char) : Except PatternError (List PatternToken) :=
  tokensFrom text.length 0 none text

/-- Whether some end of a text satisfies a condition. -/
def someEnd (condition : List Char → Bool) : List Char → Bool
  | [] => condition []
  | c :: rest => condition (c :: rest) || someEnd condition rest

/-- Whether a name is of the form that a pattern describes. -/
def fits : List PatternToken → List Char → Bool
  | [], name => name.isEmpty
  | .anyText :: rest, name => someEnd (fits rest) name
  | .anyDirectories :: rest, name => fits rest name || fits rest []
  | .char c :: rest, d :: name => c == d && fits rest name
  | .anyChar :: rest, _ :: name => fits rest name
  | .oneOf set :: rest, c :: name => set.any (·.contains c) && fits rest name
  | .noneOf set :: rest, c :: name => !set.any (·.contains c) && fits rest name
  | _ :: _, [] => false

end Pattern

/-- A part of a pattern between slashes. -/
inductive PatternPart where
  /-- A name without wildcards. -/
  | literal (name : List Char)
  | wildcard (tokens : List PatternToken)
  /-- Any directories. -/
  | directories
deriving DecidableEq, Repr, Inhabited

namespace PatternPart

/-- The characters of a pattern that stands for itself only. -/
def literal? (tokens : List PatternToken) : Option (List Char) :=
  tokens.mapM fun t =>
    match t with
    | .char c => some c
    | _ => none

/-- The part of a pattern with the given pieces. -/
def ofTokens (tokens : List PatternToken) : PatternPart :=
  if tokens.contains .anyDirectories then .directories
  else
    match literal? tokens with
    | some name => .literal name
    | none => .wildcard tokens

/-- Whether a name is of the form that a part describes. -/
def fitsName (part : PatternPart) (name : List Char) : Bool :=
  match part with
  | literal text => text == name
  | wildcard tokens => Pattern.fits tokens name
  | directories => false

/-- Leaves one of several parts in a row that stand for any directories. -/
def collapse : List PatternPart → List PatternPart
  | .directories :: .directories :: rest => collapse (.directories :: rest)
  | part :: rest => part :: collapse rest
  | [] => []

end PatternPart

/-- Whether an input is a pattern. -/
def isPattern (input : String) : Bool :=
  input.toList.any fun c => c == '*' || c == '?' || c == '['

/-- The parts of a pattern.  The whole pattern has to be well formed as well as each part. -/
def patternParts (pattern : String) : Except PatternError (List PatternPart) := do
  let text := pattern.toList
  let _ ← Pattern.tokens text
  let pieces := segments (if isAbsolute text then text.drop 1 else text)
  let pieces := if pieces.getLast? == some [] then pieces.dropLast else pieces
  let parts ← pieces.mapM Pattern.tokens
  return PatternPart.collapse (parts.map PatternPart.ofTokens)

end ComponentLowering.Batch
