import SceneGuard.Rule.Checklist

/-!
# Routing

Which checklist a command goes through. Bindings are tried in order, and the first that fits is
used; a command that none fits is not checked.
-/

namespace SceneGuard

/-- A checklist for some kinds of command. -/
structure Binding (α μ : Type) where
  /-- In the order of all kinds, each once. -/
  kinds : List CommandKind
  /-- Only changes of this property; other kinds are not held to it. -/
  property : Option PropertyKey
  checklist : Checklist α μ

namespace Binding

variable {α μ : Type}

/-- A binding for the kinds listed, in any order and any number of times. -/
def ofKinds (listed : List CommandKind) (property : Option PropertyKey)
    (checklist : Checklist α μ) : Binding α μ :=
  { kinds := CommandKind.all.filter listed.contains, property, checklist }

/-- Whether a binding is for a command: by its kind, and by its property where both name one. -/
def fits (b : Binding α μ) (c : Command α) : Bool :=
  b.kinds.contains c.kind &&
    -- a command without a property is not asked for one
    match b.property, c.propertyKey with
    | some wanted, some key => wanted = key
    | _, _ => true

end Binding

/-- Bindings in the order in which they are tried. -/
structure Routing (α μ : Type) where
  bindings : List (Binding α μ) := []

namespace Routing

variable {α μ : Type}

/-- The checklist of the first binding that fits. -/
def checklistFor? (r : Routing α μ) (c : Command α) : Option (Checklist α μ) :=
  (r.bindings.find? fun b => b.fits c).map (·.checklist)

end Routing

end SceneGuard
