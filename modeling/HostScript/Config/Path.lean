import HostScript.Text.CodePoint

/-!
# Paths

A path is a root and its parts. Empty parts and parts that are one dot are dropped when a path is
read, and two slashes in front are a root of their own.
-/

namespace HostScript

/-- The place where a path starts. -/
inductive PathRoot
  | relative
  | slash
  | doubleSlash
deriving DecidableEq

/-- A path. -/
structure Path where
  root : PathRoot
  parts : List Text
deriving DecidableEq

namespace Path

/-- The root of a text: two slashes, or any other number of them. -/
def rootOf (t : Text) : PathRoot :=
  match (t.takeWhile (· = .scalar '/')).length with
  | 0 => .relative
  | 2 => .doubleSlash
  | _ => .slash

/-- The path that a text writes. -/
def ofText (t : Text) : Path :=
  ⟨rootOf t, (Text.splitOn (.scalar '/') t).filter fun part => part ≠ [] ∧ part ≠ [.scalar '.']⟩

/-- The text of a root. -/
def rootText : PathRoot → Text
  | .relative => []
  | .slash => "/"
  | .doubleSlash => "//"

/-- The text of a path. A path without root and parts is the current directory. -/
def text (p : Path) : Text :=
  if p.root = .relative ∧ p.parts = [] then "."
  else rootText p.root ++ Text.join "/" p.parts

/-- Whether a path does not depend on the current directory. -/
def isAbsolute (p : Path) : Bool := p.root ≠ .relative

/-- A path seen from another one. -/
def join (base p : Path) : Path :=
  if p.isAbsolute then p else ⟨base.root, base.parts ++ p.parts⟩

end Path

/-- The home directories of accounts by their names, as far as a machine knows them. The user at hand
has the empty name. -/
abbrev Accounts := Text → Option Path

/-- The accounts of a machine that knows the user at hand and the administrator only. -/
def Accounts.ofUser (home : Path) : Accounts := fun name =>
  if name = [] then some home
  else if name = "root" then some (Path.ofText "/root")
  else none

/-- The path with a home directory in place of a tilde and a name at its head, if it is known. -/
def Path.expandHome? (p : Path) (accounts : Accounts) : Option Path :=
  match p.root, p.parts with
  | .relative, (.scalar '~' :: name) :: rest =>
    (accounts name).map fun base => ⟨base.root, base.parts ++ rest⟩
  | _, _ => some p

end HostScript
