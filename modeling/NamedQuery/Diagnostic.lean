/-!
# Diagnostics

What a user is told of a failure: a message, the code it is filed under, advice
where there is some, and the failure behind it.
-/

namespace NamedQuery

structure Diagnostic where
  message : String
  code : String
  help : Option String
  cause : Option Diagnostic
  deriving Repr, Inhabited

namespace Diagnostic

/-- A line of its own for each further part that is there. -/
def helpLine : Option String → String
  | none => ""
  | some help => "\nhelp: " ++ help

/-- The text of a diagnostic and of what caused it. -/
def report : Diagnostic → String
  | ⟨message, code, help, none⟩ => "[" ++ code ++ "] " ++ message ++ helpLine help
  | ⟨message, code, help, some cause⟩ =>
      "[" ++ code ++ "] " ++ message ++ helpLine help ++ "\ncaused by: " ++ cause.report

end Diagnostic

end NamedQuery
