import HostScript.Yaml.Scan
import HostScript.Yaml.Scheme

/-!
# From tokens to nodes

A document is a tree of nodes: scalars, sequences and mappings. The tokens are read through a
`Supply`, which ends with the fault of the scanner, if there is one, so that a fault of the tokens
counts only where they are wanted. An alias stands for the node of its anchor; inside the collection
that it names it stands for an empty one, so that trees are finite.
-/

namespace HostScript.Yaml

/-- A node, with the place where it begins. -/
inductive Node
  | scalar (tag : Tag) (t : Text) (mark : Mark)
  | sequence (tag : Tag) (items : List Node) (mark : Mark)
  | mapping (tag : Tag) (entries : List (Node × Node)) (mark : Mark)

instance : Inhabited Node := ⟨.scalar .null [] .start⟩

namespace Node

/-- The tag of a node. -/
def tag : Node → Tag
  | scalar tag _ _ => tag
  | sequence tag _ _ => tag
  | mapping tag _ _ => tag

/-- The place where a node begins. -/
def mark : Node → Mark
  | scalar _ _ m => m
  | sequence _ _ m => m
  | mapping _ _ m => m

/-- The name of the kind of a node in messages. -/
def kindName : Node → String
  | scalar _ _ _ => "scalar"
  | sequence _ _ _ => "sequence"
  | mapping _ _ _ => "mapping"

/-- The scalar that stands where nothing is written. -/
def empty (m : Mark) : Node := .scalar (Tag.ofPlain []) [] m

end Node

/-! ## Supplies -/

/-- What is left to read: the tokens and the fault behind them, the meanings of the handles of tags,
and the nodes of the anchors so far. -/
structure Supply where
  tokens : List Token
  fault : Option Fault
  handles : List (Text × Text)
  anchors : List (Text × Node)

/-- A procedure that reads tokens. -/
abbrev Reader (α : Type) := StateT Supply (Except Fault) α

namespace Reader

/-- Ends reading at a fault. -/
def stop {α : Type} (activity : Option (Activity × Option Mark)) (problem : Problem) (m : Mark) :
    Reader α :=
  throw (.marked activity problem m)

/-- The next token, which stays the next one. -/
def peek : Reader Token := do
  let s ← get
  match s.tokens, s.fault with
  | t :: _, _ => return t
  | [], some fault => throw fault
  | [], none => return ⟨.streamEnd, .start, .start⟩

/-- Reads the next token. -/
def take : Reader Token := do
  let t ← peek
  modify fun s => { s with tokens := s.tokens.drop 1 }
  return t

/-- The kind of the next token. -/
def peekForm : Reader Form := return (← peek).form

/-- Reads the next token if it is the given one, and says whether it was. -/
def accept (form : Form) : Reader Bool := do
  if (← peekForm) = form then
    discard take
    return true
  else return false

/-! ## Properties -/

/-- What stands in front of a node: an anchor, the name of a tag, and the place of the first. -/
structure Properties where
  anchor : Option Text
  tag : Option Text
  start : Option Mark

/-- The name of a tag. -/
def tagName (start m : Mark) (handle : Option Text) (suffix : Text) : Reader Text := do
  match handle with
  | none => return suffix
  | some handle =>
    match (← get).handles.lookup handle with
    | some meaning => return meaning ++ suffix
    | none => stop (some (.parsing "a node", some start)) (.unknownHandle handle) m

/-- Reads the anchor and the tag in front of a node, in either order. -/
def properties : Reader Properties := do
  let first ← peek
  match first.form with
  | .anchor name =>
    discard take
    let second ← peek
    match second.form with
    | .tag handle suffix =>
      discard take
      return ⟨some name, some (← tagName first.start second.start handle suffix), some first.start⟩
    | _ => return ⟨some name, none, some first.start⟩
  | .tag handle suffix =>
    discard take
    let second ← peek
    match second.form with
    | .anchor name =>
      discard take
      return ⟨some name, some (← tagName first.start first.start handle suffix), some first.start⟩
    | _ => return ⟨none, some (← tagName first.start first.start handle suffix), some first.start⟩
  | _ => return ⟨none, none, none⟩

namespace Properties

/-- The name of the tag, unless it is the one that says nothing. -/
def tagName? (p : Properties) : Option Text := p.tag.filter (· ≠ [.scalar '!'])

/-- The tag of a scalar. -/
def scalarTag (p : Properties) (t : Text) (isPlain : Bool) : Tag :=
  match p.tagName? with
  | some name => .ofName name
  | none => if isPlain || p.tag.isSome then .ofPlain t else .string

/-- The tag of a collection that has the given one by itself. -/
def collectionTag (p : Properties) (usual : Tag) : Tag :=
  match p.tagName? with
  | some name => .ofName name
  | none => usual

end Properties

/-- Names a node by an anchor, which must be a new one. -/
def declare (anchor : Option Text) (n : Node) : Reader Unit := do
  match anchor with
  | none => return ()
  | some name =>
    match (← get).anchors.lookup name with
    | some first => stop (some (.repeatedAnchor name, some first.mark)) .secondAnchor n.mark
    | none => modify fun s => { s with anchors := (name, n) :: s.anchors }

/-- Completes a node that was named while it was empty. -/
def complete (anchor : Option Text) (n : Node) : Reader Node := do
  match anchor with
  | none => return n
  | some name =>
    modify fun s => { s with
      anchors := s.anchors.map fun entry => if entry.1 = name then (name, n) else entry }
    return n

/-- The node that an alias stands for. -/
def aliased (name : Text) (m : Mark) : Reader Node := do
  match (← get).anchors.lookup name with
  | some n => return n
  | none => stop none (.unknownAlias name) m

/-! ## Nodes -/

/-- Ends reading where a token was wanted and another one stands. -/
def refuse {α : Type} (activity : Activity) (start : Mark) (problem : String → Problem) :
    Reader α := do
  let t ← peek
  stop (some (activity, some start)) (problem t.form.label) t.start

/-- Reads a node, or an empty one at the given place if one of some tokens is next. -/
def orEmpty (ends : Form → Bool) (m : Mark) (node : Reader Node) : Reader Node := do
  if ends (← peekForm) then return .empty m else node

/-- The tokens before which an item of a block may be left out. -/
def endsItem (form : Form) : Bool := form = .blockEntry || form = .blockEnd

/-- The tokens before which a key or a value of a block may be left out. -/
def endsEntry (form : Form) : Bool := form = .key || form = .value || form = .blockEnd

/-- The tokens before which a key or a value between brackets may be left out. -/
def endsFlow (closing form : Form) : Bool := form = closing || form = .flowEntry

/-- Reads a sequence with the given properties. -/
def items (p : Properties) (start : Mark) (read : Reader (List Node)) : Reader Node := do
  let tag := p.collectionTag .sequence
  declare p.anchor (.sequence tag [] start)
  complete p.anchor (.sequence tag (← read) start)

/-- Reads a mapping with the given properties. -/
def entries (p : Properties) (start : Mark) (read : Reader (List (Node × Node))) : Reader Node := do
  let tag := p.collectionTag .mapping
  declare p.anchor (.mapping tag [] start)
  complete p.anchor (.mapping tag (← read) start)

mutual

/-- Reads a node. Blocks may be read if `block` says so, and items without a block of their own if
`loose` says so. -/
def node (block loose : Bool) : (bound : Nat) → Reader Node
  | 0 => do refuse (.parsing "a node") .start (.expectedToken "the node content")
  | bound + 1 => do
    let first ← peek
    match first.form with
    | .reference name =>
      discard take
      aliased name first.start
    | _ =>
      let p ← properties
      let t ← peek
      let start := p.start.getD t.start
      match t.form, block, loose with
      | .blockEntry, _, true =>
        items p start (looseItems bound)
      | .scalar text isPlain, _, _ =>
        discard take
        let n := Node.scalar (p.scalarTag text isPlain) text start
        declare p.anchor n
        return n
      | .flowSequenceStart, _, _ => items p start (do discard take; flowItems t.start true bound)
      | .flowMappingStart, _, _ => entries p start (do discard take; flowEntries t.start true bound)
      | .blockSequenceStart, true, _ => items p start (do discard take; blockItems t.start bound)
      | .blockMappingStart, true, _ => entries p start (do discard take; blockEntries t.start bound)
      | _, _, _ =>
        if p.start.isSome then
          let n := Node.scalar (p.scalarTag [] p.tag.isNone) [] start
          declare p.anchor n
          return n
        else
          refuse (.parsing (if block then "a block node" else "a flow node")) start
            (.expectedToken "the node content")

/-- Reads the items of a block, which began at `start`. -/
def blockItems (start : Mark) : (bound : Nat) → Reader (List Node)
  | 0 => return []
  | bound + 1 => do
    let t ← peek
    if t.form = .blockEntry then
      discard take
      let item ← orEmpty endsItem t.stop (node true false bound)
      return item :: (← blockItems start bound)
    else if ← accept .blockEnd then return []
    else refuse (.parsing "a block collection") start (.expectedToken "<block end>")

/-- Reads items that have no block of their own. -/
def looseItems : (bound : Nat) → Reader (List Node)
  | 0 => return []
  | bound + 1 => do
    let t ← peek
    if t.form = .blockEntry then
      discard take
      let ends (form : Form) := form = .blockEntry || endsEntry form
      let item ← orEmpty ends t.stop (node true false bound)
      return item :: (← looseItems bound)
    else return []

/-- Reads the entries of a block, which began at `start`. -/
def blockEntries (start : Mark) : (bound : Nat) → Reader (List (Node × Node))
  | 0 => return []
  | bound + 1 => do
    let t ← peek
    if t.form = .key then
      discard take
      let key ← orEmpty endsEntry t.stop (node true true bound)
      let t ← peek
      let value ←
        if ← accept .value then orEmpty endsEntry t.stop (node true true bound)
        else pure (.empty t.start)
      return (key, value) :: (← blockEntries start bound)
    else if ← accept .blockEnd then return []
    else refuse (.parsing "a block mapping") start (.expectedToken "<block end>")

/-- Reads a key between brackets of which the mark has been read, or nothing, and its value. -/
def flowEntry (closing : Form) (m : Mark) : (bound : Nat) → Reader (Node × Node)
  | 0 => return (.empty m, .empty m)
  | bound + 1 => do
    let endsKey (form : Form) := form = .value || endsFlow closing form
    let key ← orEmpty endsKey m (node false false bound)
    let t ← peek
    let value ←
      if ← accept .value then orEmpty (endsFlow closing) t.stop (node false false bound)
      else pure (.empty t.start)
    return (key, value)

/-- Reads the items between brackets, which began at `start`, behind the bracket or an item. -/
def flowItems (start : Mark) (isFirst : Bool) : (bound : Nat) → Reader (List Node)
  | 0 => return []
  | bound + 1 => do
    if ← accept .flowSequenceEnd then return []
    else
      if !isFirst then
        if !(← accept .flowEntry) then
          refuse (.parsing "a flow sequence") start (.gotToken "',' or ']'")
      let t ← peek
      if t.form = .key then
        discard take
        let entry ← flowEntry .flowSequenceEnd t.stop bound
        return .mapping .mapping [entry] t.start :: (← flowItems start false bound)
      else if ← accept .flowSequenceEnd then return []
      else
        let item ← node false false bound
        return item :: (← flowItems start false bound)

/-- Reads the entries between braces, which began at `start`, behind the brace or an entry. -/
def flowEntries (start : Mark) (isFirst : Bool) : (bound : Nat) → Reader (List (Node × Node))
  | 0 => return []
  | bound + 1 => do
    if ← accept .flowMappingEnd then return []
    else
      if !isFirst then
        if !(← accept .flowEntry) then
          refuse (.parsing "a flow mapping") start (.gotToken "',' or '\x7d'")
      let t ← peek
      if t.form = .key then
        discard take
        let entry ← flowEntry .flowMappingEnd t.stop bound
        return entry :: (← flowEntries start false bound)
      else if ← accept .flowMappingEnd then return []
      else
        let key ← node false false bound
        let behind ← peek
        return (key, .empty behind.start) :: (← flowEntries start false bound)

end

/-! ## Documents -/

/-- The handles that need no directive. -/
def usualHandles : List (Text × Text) := [("!", "!"), ("!!", Tag.commonStart)]

/-- Reads the directives in front of a document, and sets the handles. -/
def directives : (bound : Nat) → (version : Bool) → Reader Unit
  | 0, _ => return ()
  | bound + 1, version => do
    let t ← peek
    match t.form with
    | .directive (.version major _) =>
      discard take
      if version then stop none .repeatedVersion t.start
      if major ≠ 1 then stop none .wrongVersion t.start
      directives bound true
    | .directive (.handle handle meaning) =>
      discard take
      if ((← get).handles.lookup handle).isSome then stop none (.repeatedHandle handle) t.start
      modify fun s => { s with handles := (handle, meaning) :: s.handles }
      directives bound version
    | .directive .other =>
      discard take
      directives bound version
    | _ => return ()

/-- Reads the start of a document behind the ends of earlier ones, and gives its place; there is
none at the end of the text. -/
def documentStart (bound : Nat) : Reader (Option Mark) := do
  skipEnds bound
  let first ← peek
  if first.form = .streamEnd then return none
  else
    directives bound false
    modify fun s => { s with handles := s.handles ++ usualHandles }
    let t ← peek
    if ← accept .documentStart then return some first.start
    else stop none (.expectedToken "'<document start>'" t.form.label) t.start
where
  /-- Reads the ends of documents. -/
  skipEnds : Nat → Reader Unit
    | 0 => return ()
    | n + 1 => do if ← accept .documentEnd then skipEnds n

/-- Whether a token ends a document that is empty. -/
def endsDocument : Form → Bool
  | .directive _ => true
  | .documentStart => true
  | .documentEnd => true
  | .streamEnd => true
  | _ => false

/-- Reads the first document, if there is one. -/
def firstDocument (bound : Nat) : Reader (Option Node) := do
  let t ← peek
  if endsDocument t.form && t.form != .documentEnd then
    match ← documentStart bound with
    | none => return none
    | some _ =>
      let t ← peek
      return some (← orEmpty endsDocument t.start (node true false bound))
  else
    modify fun s => { s with handles := usualHandles }
    return some (← node true false bound)

/-- Reads the only document. No other one may follow. -/
def document (bound : Nat) : Reader (Option Node) := do
  match ← firstDocument bound with
  | none => return none
  | some n =>
    discard (accept .documentEnd)
    modify fun s => { s with handles := [] }
    match ← documentStart bound with
    | none => return some n
    | some m => stop (some (.singleDocument, some n.mark)) .secondDocument m

end Reader

/-- Whether a document may hold a code point. -/
def isPrintable (c : CodePoint) : Bool :=
  let n := c.toNat
  n = 9 || n = 10 || n = 13 || 0x20 ≤ n && n ≤ 0x7E || n = 0x85 || 0xA0 ≤ n && n ≤ 0xD7FF
    || 0xE000 ≤ n && n ≤ 0xFFFD || 0x10000 ≤ n

/-- The root node of the document that a text holds, if it holds one. -/
def readNode (t : Text) : Except Fault (Option Node) :=
  match t.findIdx? (!isPrintable ·) with
  | some index => .error (.unprintable (t.getD index default) index)
  | none =>
    let stream := scan t
    ((Reader.document (3 * stream.tokens.length + 3)).run'
      ⟨stream.tokens, stream.fault, [], []⟩)

end HostScript.Yaml
