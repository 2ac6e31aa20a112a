import HostScript.Text.UpperCase
import HostScript.Text.Printable

/-!
# Registries

Functions under the names by which scripts call them, in the order in which they came in. A name is
taken once and for all.
-/

namespace HostScript

/-- Things under names. -/
structure Registry (α : Type) where
  entries : List (Text × α)

namespace Registry

variable {α : Type}

/-- The registry without entries. -/
def empty : Registry α := ⟨[]⟩

/-- The names in order. -/
def names (r : Registry α) : List Text := r.entries.map (·.1)

/-- Adds an entry, unless its name is taken. -/
def register? (r : Registry α) (name : Text) (x : α) : Option (Registry α) :=
  if r.names.contains name then none else some ⟨r.entries ++ [(name, x)]⟩

/-- The wording for a name that is taken. -/
def takenMessage (name : Text) : Text :=
  "native function " ++ name.quoted ++ " is already registered"

/-- The name under which a function is registered: the given one, or its own in camel case. -/
def chooseName (own : Text) (given : Option Text) : Text := given.getD own.lowerCamel

theorem names_register? {r s : Registry α} {name : Text} {x : α}
    (h : r.register? name x = some s) : s.names = r.names ++ [name] ∧ name ∉ r.names := by
  simp only [register?] at h
  split at h
  · simp at h
  · next absent =>
    obtain rfl := Option.some.inj h
    exact ⟨by simp [names], by simpa using absent⟩

end Registry

end HostScript
