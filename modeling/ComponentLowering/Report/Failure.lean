/-
# Failures

What stops a whole module: its text is not of the language, or code made up for it cannot be read
back.
-/

namespace ComponentLowering.Report

/-- The reason why a module has no result. -/
inductive Failure where
  /-- The module cannot be read. -/
  | unreadable (file message : String)
  /-- Code made up by the compiler cannot be read. -/
  | unbuildable (snippet message : String)
deriving DecidableEq, Repr, Inhabited

/-- The line that a failure is reported by. -/
def Failure.display : Failure → String
  | unreadable file message => "failed to parse " ++ file ++ ": " ++ message
  | unbuildable snippet message => "failed to build `" ++ snippet ++ "`: " ++ message

end ComponentLowering.Report
