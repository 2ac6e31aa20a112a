import HostScript.Config.Path
import HostScript.Text.Printable

/-!
# Files

The files that a session can read, as texts under paths. A directory is there as far as a file lies
in it. Line ends of all kinds are read as line feeds.
-/

namespace HostScript

/-- Files under paths, which start at the current directory unless they have a root. -/
abbrev Files := List (Path × Text)

/-- Why a file cannot be read. -/
inductive FileFault
  | notFound
  | notADirectory
  | isADirectory
deriving DecidableEq

/-- The wording of why the file at a path cannot be read. -/
def FileFault.message (p : Path) : FileFault → Text
  | notFound => "[Errno 2] No such file or directory: " ++ p.text.quoted
  | notADirectory => "[Errno 20] Not a directory: " ++ p.text.quoted
  | isADirectory => "[Errno 21] Is a directory: " ++ p.text.quoted

namespace Files

/-- Follows the parts of a path to the parent directory where they say so. -/
def resolveParts (seen : List Text) : List Text → List Text
  | [] => seen.reverse
  | part :: rest =>
    if part = ".." then resolveParts (seen.drop 1) rest
    else resolveParts (part :: seen) rest

/-- The path without steps to parent directories. -/
def resolve (p : Path) : Path := ⟨p.root, resolveParts [] p.parts⟩

/-- Whether a path lies below another one. -/
def isBelow (directory p : Path) : Bool :=
  directory.root = p.root && directory.parts.isPrefixOf p.parts
    && directory.parts.length < p.parts.length

/-- Whether a path is a directory. -/
def isDirectory (files : Files) (p : Path) : Bool :=
  p.parts.isEmpty || files.any fun entry => isBelow p entry.1

/-- The text with a line feed for each line end: a carriage return, a line feed, or both. -/
def unifyLineEnds : Text → Text
  | [] => []
  | .scalar '\r' :: .scalar '\n' :: rest => .scalar '\n' :: unifyLineEnds rest
  | .scalar '\r' :: rest => .scalar '\n' :: unifyLineEnds rest
  | c :: rest => c :: unifyLineEnds rest

/-- The text of the file at a path. -/
def read (files : Files) (p : Path) : Except FileFault Text :=
  let place := resolve p
  match files.lookup place with
  | some t => .ok (unifyLineEnds t)
  | none =>
    if isDirectory files place then .error .isADirectory
    else if files.any fun entry => isBelow entry.1 place then .error .notADirectory
    else .error .notFound

end Files

end HostScript
