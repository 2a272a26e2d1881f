/-!
# Severities

How bad the outcome of a check is. Severities are ordered and only ever raised.
-/

namespace SceneGuard

/-- How bad the outcome of a check is. -/
inductive Severity where
  /-- Nothing to report. -/
  | ok
  /-- The edit is allowed and questionable. -/
  | warning
  /-- The edit breaks a rule. -/
  | error
  deriving DecidableEq, Repr

namespace Severity

/-- Every severity, from harmless to bad. -/
def all : List Severity := [.ok, .warning, .error]

/-- The place of a severity in their order. -/
def rank : Severity → Nat
  | .ok => 0
  | .warning => 1
  | .error => 2

instance : LE Severity := ⟨fun a b => a.rank ≤ b.rank⟩

instance (a b : Severity) : Decidable (a ≤ b) := inferInstanceAs (Decidable (a.rank ≤ b.rank))

/-- The worse of two severities. -/
def raise (a b : Severity) : Severity := if a ≤ b then b else a

/-- The name of a severity in files. -/
def name : Severity → String
  | .ok => "ok"
  | .warning => "warning"
  | .error => "error"

/-- The severity as the status bar words it. -/
def label : Severity → String
  | .ok => "Ok"
  | .warning => "Warning"
  | .error => "Error"

/-- The severity of a name; none for a word that names none. -/
def ofName? (s : String) : Option Severity := all.find? fun k => k.name == s

/-- The color of the status bar: red, green, blue. -/
def color : Severity → UInt8 × UInt8 × UInt8
  | .ok => (0, 160, 0)
  | .warning => (255, 200, 0)
  | .error => (220, 0, 0)

end Severity

end SceneGuard
