/-
# Arguments

The words of a command, read from the first to the last.  Options may stand between files; what
follows two dashes is files only.  An option is given at most once.
-/
import ComponentLowering.Settings.Options

namespace ComponentLowering.CommandLine

open ComponentLowering.Settings

/-- What a run is asked to do. -/
structure Invocation where
  files : List String := []
  config : Option String := none
  corePath : Option String := none
  convention : Option Convention := none
  componentExport : Option ComponentExport := none
  style : Option StyleMode := none
  outDir : Option String := none
  verbose : Bool := false
deriving DecidableEq, Repr, Inhabited

/-- What a command asks for. -/
inductive Request where
  | run (invocation : Invocation)
  | showVersion
  | showHelp
deriving DecidableEq, Repr, Inhabited

/-- An option that takes a value. -/
inductive ValueOption where
  | config | corePath | convention | componentExport | style | outDir
deriving DecidableEq, Repr, Inhabited

namespace ValueOption

/-- The form of an option in messages. -/
def usage : ValueOption → String
  | config => "--config <PATH>"
  | corePath => "--core-import-path <MODULE>"
  | convention => "--module <KIND>"
  | componentExport => "--component-export <KIND>"
  | style => "--style <MODE>"
  | outDir => "--out-dir <DIR>"

/-- The words that an option admits, if it does not admit all. -/
def words : ValueOption → List String
  | convention => ["esm", "cjs"]
  | componentExport => ["lazy", "customelement"]
  | style => ["static", "none"]
  | _ => []

/-- The option with a long name. -/
def ofLong? : String → Option ValueOption
  | "config" => some config
  | "core-import-path" => some corePath
  | "module" => some convention
  | "component-export" => some componentExport
  | "style" => some style
  | "out-dir" => some outDir
  | _ => none

/-- The option with a short name. -/
def ofShort? : Char → Option ValueOption
  | 'c' => some config
  | 'o' => some outDir
  | _ => none

end ValueOption

/-- What is wrong with a command. -/
inductive ArgumentFault where
  | unknown (argument : String)
  | repeated (usage : String)
  | missingValue (option : ValueOption)
  | wrongValue (option : ValueOption) (value : String)
  | needlessValue (usage value : String)
  | noFiles
deriving DecidableEq, Repr, Inhabited

/-- The lines that a wrong command is reported by. -/
def ArgumentFault.display : ArgumentFault → List String
  | unknown argument => ["error: unexpected argument '" ++ argument ++ "' found"]
  | repeated usage => ["error: the argument '" ++ usage ++ "' cannot be used multiple times"]
  | missingValue option =>
    ("error: a value is required for '" ++ option.usage ++ "' but none was supplied")
      :: possible option
  | wrongValue option value =>
    ("error: invalid value '" ++ value ++ "' for '" ++ option.usage ++ "'") :: possible option
  | needlessValue usage value =>
    ["error: unexpected value '" ++ value ++ "' for '" ++ usage
      ++ "' found; no more were accepted"]
  | noFiles => ["error: the following required arguments were not provided:", "  <FILES>..."]
where
  /-- The line that lists the words for an option. -/
  possible (option : ValueOption) : List String :=
    if option.words.isEmpty then []
    else ["  [possible values: " ++ ", ".intercalate option.words ++ "]"]

namespace Invocation

/-- Sets what was not set before. -/
def once {α : Type} (option : ValueOption) (before : Option α) (value : α) :
    Except ArgumentFault (Option α) :=
  if before.isSome then .error (.repeated option.usage) else .ok (some value)

/-- The choice that a word stands for. -/
def chosen {α : Type} (option : ValueOption) (read : String → Except UnknownWord α)
    (word : String) : Except ArgumentFault α :=
  if option.words.contains word then (read word).mapError fun _ => .wrongValue option word
  else .error (.wrongValue option word)

/-- Sets an option. -/
def set (i : Invocation) (option : ValueOption) (value : String) :
    Except ArgumentFault Invocation := do
  match option with
  | .config => return { i with config := ← once option i.config value }
  | .corePath => return { i with corePath := ← once option i.corePath value }
  | .convention =>
    let choice ← chosen option Convention.ofWord value
    return { i with convention := ← once option i.convention choice }
  | .componentExport =>
    let choice ← chosen option ComponentExport.ofWord value
    return { i with componentExport := ← once option i.componentExport choice }
  | .style =>
    let choice ← chosen option StyleMode.ofWord value
    return { i with style := ← once option i.style choice }
  | .outDir => return { i with outDir := ← once option i.outDir value }

/-- Asks for all messages. -/
def setVerbose (i : Invocation) : Except ArgumentFault Invocation :=
  if i.verbose then .error (.repeated "--verbose") else .ok { i with verbose := true }

/-- The request of a command that was read to its end. -/
def finish (i : Invocation) : Except ArgumentFault Request :=
  if i.files.isEmpty then .error .noFiles else .ok (.run i)

end Invocation

/-- What an argument leads to. -/
inductive Step where
  | next (invocation : Invocation)
  /-- The next argument is the value of an option. -/
  | wants (option : ValueOption) (invocation : Invocation)
  | stop (request : Request)

/-- The long names of the options that take no value. -/
def flagNames : List String := ["verbose", "version", "help"]

/-- Reads an argument that begins with two dashes, from behind them. -/
def readLong (text : List Char) (i : Invocation) : Except ArgumentFault Step := do
  let name := String.ofList (text.takeWhile (· != '='))
  let attached := (text.dropWhile (· != '=')).tail?.map String.ofList
  match ValueOption.ofLong? name with
  | some option =>
    match attached with
    | some value => return .next (← i.set option value)
    | none => return .wants option i
  | none =>
    if !flagNames.contains name then throw (.unknown ("--" ++ name))
    match attached with
    | some value => throw (.needlessValue ("--" ++ name) value)
    | none =>
      if name == "verbose" then return .next (← i.setVerbose)
      else return .stop (if name == "version" then .showVersion else .showHelp)

/-- Reads the short names behind a dash. -/
def readShort : List Char → Invocation → Except ArgumentFault Step
  | [], i => .ok (.next i)
  | c :: rest, i =>
    match ValueOption.ofShort? c, rest with
    | some option, [] => .ok (.wants option i)
    | some option, '=' :: value => return .next (← i.set option (String.ofList value))
    | some option, value => return .next (← i.set option (String.ofList value))
    | none, rest =>
      match c with
      | 'v' => do readShort rest (← i.setVerbose)
      | 'V' => .ok (.stop .showVersion)
      | 'h' => .ok (.stop .showHelp)
      | _ => .error (.unknown (String.ofList ['-', c]))

/-- Whether an argument is an option or two dashes. -/
def isDashed (argument : String) : Bool :=
  match argument.toList with
  | '-' :: _ :: _ => true
  | _ => false

/-- Reads an argument other than two dashes. -/
def readArgument (argument : String) (i : Invocation) : Except ArgumentFault Step :=
  match argument.toList with
  | '-' :: '-' :: text => readLong text i
  | '-' :: c :: rest => readShort (c :: rest) i
  | _ => .ok (.next { i with files := i.files ++ [argument] })

/-- Reads arguments. -/
def readArguments : List String → Invocation → Except ArgumentFault Request
  | [], i => i.finish
  | argument :: rest, i =>
    if argument == "--" then { i with files := i.files ++ rest }.finish
    else do
      match ← readArgument argument i with
      | .next i => readArguments rest i
      | .stop request => return request
      | .wants option i =>
        match rest with
        | [] => throw (.missingValue option)
        | value :: rest =>
          if isDashed value then throw (.missingValue option)
          readArguments rest (← i.set option value)

/-- The request that the arguments of a command make. -/
def Request.ofArguments (arguments : List String) : Except ArgumentFault Request :=
  readArguments arguments {}

end ComponentLowering.CommandLine
