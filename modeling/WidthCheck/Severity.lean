/-!
# Severities
-/

namespace WidthCheck

/-- How grave a finding is. -/
inductive Severity where
  | info
  | warning
  | error
deriving DecidableEq, Repr, Inhabited

namespace Severity

def rank : Severity → Nat
  | info => 0
  | warning => 1
  | error => 2

def name : Severity → String
  | info => "info"
  | warning => "warning"
  | error => "error"

def ofName? (name : String) : Option Severity :=
  if name = "info" then some info
  else if name = "warning" then some warning
  else if name = "error" then some error
  else none

/-- Whether a finding of severity `s` is at least as grave as `threshold`. -/
def atLeast (s threshold : Severity) : Bool := threshold.rank ≤ s.rank

end Severity

end WidthCheck
