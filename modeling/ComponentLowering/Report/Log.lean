/-
# Logs

Messages of four levels.  A logger takes note of the messages at or above its own level; it may
keep them, show them, or drop them all.
-/

namespace ComponentLowering.Report

/-- How important a message is. -/
inductive LogLevel where
  | debug | info | warn | error
deriving DecidableEq, Repr, Inhabited

namespace LogLevel

/-- The rank of a level; more important levels rank higher. -/
def rank : LogLevel → Nat
  | debug => 0
  | info => 1
  | warn => 2
  | error => 3

/-- All levels, least important first. -/
def all : List LogLevel := [debug, info, warn, error]

/-- The word for a level in shown messages. -/
def tag : LogLevel → String
  | debug => "DEBUG"
  | info => "INFO"
  | warn => "WARN"
  | error => "ERROR"

/-- Whether messages of a level reach a logger of the given level. -/
def reaches (level threshold : LogLevel) : Bool := threshold.rank ≤ level.rank

end LogLevel

/-- A message with its level. -/
structure LogEntry where
  level : LogLevel
  message : String
deriving DecidableEq, Repr, Inhabited

/-- Messages in the order in which they were sent. -/
abbrev Log := List LogEntry

namespace Log

/-- The messages at or above a level. -/
def above (log : Log) (threshold : LogLevel) : Log :=
  log.filter (·.level.reaches threshold)

/-- The texts of the messages of one level. -/
def messagesOf (log : Log) (level : LogLevel) : List String :=
  (log.filter (·.level == level)).map (·.message)

end Log

/-- What receives messages. -/
inductive Logger where
  /-- Drops all messages. -/
  | null
  /-- Shows messages. -/
  | console (level : LogLevel)
  /-- Keeps messages. -/
  | capturing (level : LogLevel) (entries : Log)
deriving Inhabited

namespace Logger

/-- The logger of a command that does or does not show its steps. -/
def ofVerbosity (verbose : Bool) : Logger := .console (if verbose then .debug else .warn)

/-- The level of a logger. -/
def level : Logger → LogLevel
  | null => .error
  | console l => l
  | capturing l _ => l

/-- Whether messages of a level are taken note of. -/
def isEnabled (logger : Logger) (level : LogLevel) : Bool := level.reaches logger.level

/-- The messages kept so far. -/
def entries : Logger → Log
  | capturing _ es => es
  | _ => []

/-- Sends a message. -/
def send (logger : Logger) (entry : LogEntry) : Logger :=
  match logger with
  | capturing l es =>
    if entry.level.reaches l then .capturing l (es ++ [entry]) else .capturing l es
  | other => other

/-- The line that a logger shows for a message, if it shows any. -/
def shown? (logger : Logger) (entry : LogEntry) : Option String :=
  match logger with
  | console l =>
    if entry.level.reaches l then some ("[lazyc " ++ entry.level.tag ++ "] " ++ entry.message)
    else none
  | _ => none

end Logger

end ComponentLowering.Report
