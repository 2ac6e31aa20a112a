import HostScript.Config.Load
import HostScript.Yaml.Node

/-!
# Documents as settings

`load` reads a text as one YAML 1.1 document and makes a setting of it. The entries that a mapping
takes over from others stand in front of its own, so its own entries count where keys are the same.
Of several faults the one that lies least deep in the document counts, and of those the first. With
`reader`, settings files are such documents.
-/

namespace HostScript.Yaml

/-! ## Entries -/

/-- Ends reading at a node in the mapping that begins at a place. -/
def failEntry {α : Type} (start : Mark) (problem : Problem) (n : Node) : Except Fault α :=
  fail .constructingMapping start problem n.mark

mutual

/-- The entries of the mapping that begins at a place: those that it takes over from others, and
those of its own. -/
def flatten (start : Mark) :
    List (Node × Node) → Except Fault (List (Node × Node) × List (Node × Node))
  | [] => .ok ([], [])
  | (key, value) :: rest => do
    if key.tag = .merge then
      let merged ← mergedEntries start value
      let (taken, own) ← flatten start rest
      return (merged ++ taken, own)
    else
      let (taken, own) ← flatten start rest
      return (taken, (key, value) :: own)

/-- The entries that a mapping takes over from a node: a mapping, or a sequence of mappings. -/
def mergedEntries (start : Mark) : Node → Except Fault (List (Node × Node))
  | .mapping _ entries m => do
    let (taken, own) ← flatten m entries
    return taken ++ own
  | .sequence _ items _ => mergedItems start items
  | n => failEntry start
    (.expectedNode "a mapping or list of mappings for merging" n.kindName) n

/-- The entries of some mappings. Those of the first mapping count most, so they come last. -/
def mergedItems (start : Mark) : List Node → Except Fault (List (Node × Node))
  | [] => .ok []
  | .mapping _ entries m :: rest => do
    let (taken, own) ← flatten m entries
    return (← mergedItems start rest) ++ taken ++ own
  | n :: _ => failEntry start (.expectedNode "a mapping for merging" n.kindName) n

end

/-! ## What nodes must be -/

/-- Ends reading at a node that is of another kind than its tag asks for. -/
def failKind {α : Type} (wanted : String) (n : Node) : Except Fault α :=
  failAlone (.expectedNode wanted n.kindName) n.mark

/-- The items of a node that must be a sequence. -/
def itemsOf : Node → Except Fault (List Node)
  | .sequence _ items _ => .ok items
  | n => failKind "a sequence node" n

/-- The entries of a node that must be a mapping. -/
def entriesOf : Node → Except Fault (List (Node × Node))
  | .mapping _ entries m => do
    let (taken, own) ← flatten m entries
    return taken ++ own
  | n => failKind "a mapping node" n

mutual

/-- The text of a node that must be a scalar. A mapping that says what its value is will do. -/
def textOf : Node → Except Fault Text
  | .scalar _ t _ => .ok t
  | .mapping tag entries m => valueText (failKind "a scalar node" (.mapping tag [] m)) entries
  | .sequence tag _ m => failKind "a scalar node" (.sequence tag [] m)

/-- The text of the first value of a mapping, if it has one. -/
def valueText (otherwise : Except Fault Text) : List (Node × Node) → Except Fault Text
  | [] => otherwise
  | (key, value) :: rest =>
    if key.tag = .value then textOf value else valueText otherwise rest

end

/-- Ends reading at a node in a list of pairs. -/
def failPair {α : Type} (activity : Activity) (start : Mark) (wanted found : String) (n : Node) :
    Except Fault α :=
  fail activity start (.expectedNode wanted found) n.mark

/-- The entry that is the only one of a node that must be a mapping. -/
def pairOf (activity : Activity) (start : Mark) : Node → Except Fault (Node × Node)
  | .mapping _ [entry] _ => .ok entry
  | .mapping tag entries m =>
    failPair activity start "a single mapping item" (toString entries.length ++ " items")
      (.mapping tag entries m)
  | n => failPair activity start "a mapping of length 1" n.kindName n

/-- The entries of a node that must be a sequence of mappings of one entry each, up to the first
item that is none, and the fault of that item. -/
def pairsOf (activity : Activity) : Node → List (Node × Node) × Option Fault
  | .sequence _ items start => collect start items
  | n =>
    match failPair activity n.mark "a sequence" n.kindName n with
    | .ok entries => (entries, none)
    | .error fault => ([], some fault)
where
  /-- Takes the entry of each item. -/
  collect (start : Mark) : List Node → List (Node × Node) × Option Fault
    | [] => ([], none)
    | n :: rest =>
      match pairOf activity start n with
      | .ok entry => let (more, fault) := collect start rest; (entry :: more, fault)
      | .error fault => ([], some fault)

/-! ## Settings -/

/-- What is made of a part of a document, or a fault and how deep in the document it lies. -/
abbrev Built (α : Type) := Except (Nat × Fault) α

namespace Built

/-- A result whose fault lies at the given depth. -/
def lift {α : Type} (depth : Nat) (x : Except Fault α) : Built α := x.mapError (depth, ·)

/-- Two results. Of two faults the one that lies less deep counts, and else the first. -/
def both {α β : Type} : Built α → Built β → Built (α × β)
  | .ok x, .ok y => .ok (x, y)
  | .ok _, .error fault => .error fault
  | .error fault, .ok _ => .error fault
  | .error first, .error second => .error (if second.1 < first.1 then second else first)

/-- The results of a list. -/
def all {α : Type} : List (Built α) → Built (List α)
  | [] => .ok []
  | x :: rest => (both x (all rest)).map fun (x, rest) => x :: rest

/-- The text of a key at the given depth in the mapping that begins at a place. -/
def key (build : Node → Built Setting) (depth : Nat) (start : Mark) (n : Node) : Built Text :=
  if n.tag.isCollection then .lift depth (failEntry start .unhashableKey n)
  else if n.tag = .value then (Built.lift depth (textOf n))
  else (build n).map Setting.text

/-- The settings of a mapping under their keys. -/
def mapping (build : Node → Built Setting) (depth : Nat) (n : Node) : Built (Dict Setting) := do
  let entries ← lift depth (entriesOf n)
  let settings ← all (entries.map fun (k, value) => both (key build depth n.mark k) (build value))
  return .ofList settings

/-- The pairs of a list of pairs. -/
def pairs (build : Node → Built Setting) (depth : Nat) (activity : Activity) (n : Node) :
    Built (List Setting) :=
  let (entries, fault) := pairsOf activity n
  let pair (entry : Node × Node) : Built Setting :=
    (both (build entry.1) (build entry.2)).map fun (key, value) => .list [key, value]
  let behind : Built Unit := match fault with
    | some fault => .lift depth (.error fault)
    | none => .ok ()
  (both (all (entries.map pair)) behind).map (·.1)

end Built

/-- The setting of a node at the given depth. -/
def build : (bound depth : Nat) → Node → Built Setting
  | 0, _, _ => .ok .null
  | bound + 1, depth, n =>
    let inner := depth + 1
    match n.tag with
    | .sequence => do
      let items ← Built.lift inner (itemsOf n)
      return .list (← Built.all (items.map (build bound inner)))
    | .mapping => (Built.mapping (build bound inner) inner n).map fun d => .mapping d.entries
    | .set => (Built.mapping (build bound inner) inner n).map fun d => .set d.keys
    | .orderedMapping =>
      (Built.pairs (build bound inner) inner .constructingOrderedMapping n).map .list
    | .pairs => (Built.pairs (build bound inner) inner .constructingPairs n).map .list
    | .merge => .lift depth (failAlone (.unknownTag n.tag.name) n.mark)
    | .value => .lift depth (failAlone (.unknownTag n.tag.name) n.mark)
    | .other name => .lift depth (failAlone (.unknownTag name) n.mark)
    | tag => .lift depth do tag.scalar (← textOf n) n.mark

/-- The setting that a text writes. A text without a document writes null. Every level of a document
takes a character, which bounds its depth. -/
def load (t : Text) : Except Fault Setting := do
  match ← readNode t with
  | none => return .null
  | some n => (build (t.length + 2) 0 n).mapError (·.2)

/-- Settings files as YAML 1.1 documents. -/
def reader : SettingsReader := fun t =>
  (load t).mapError fun fault => ⟨fault.kind, fault.message t⟩

end HostScript.Yaml
