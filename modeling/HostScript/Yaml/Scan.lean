import HostScript.Yaml.Token

/-!
# From text to tokens

Indentation opens and closes blocks, and a colon turns what stands in front of it on its line into a
key. So a token that may be such a key is held back until the colon has come or can come no more
(`Scanner.release`). `scan` hands out the tokens of a text up to its end or to the first fault.
-/

namespace HostScript.Yaml

/-- What may turn out to be a key: the number of its first token, whether it must be a key because
it begins a line of a block mapping, and its place. -/
structure SimpleKey where
  number : Nat
  required : Bool
  mark : Mark

/-- A scanner: what is left to read; the tokens that are held back and the number of those handed
out; what may be a key in each bracket that is open, the innermost first and the blocks last; the
columns of the blocks that are open, the innermost first; whether a key may begin here; and whether
the end has been reached. -/
structure Scanner where
  cursor : Cursor
  queue : List Token
  taken : Nat
  keys : List (Option SimpleKey)
  indents : List Nat
  keyAllowed : Bool
  finished : Bool

namespace Scanner

/-- The scanner at the start of a text, behind the byte order mark if there is one. -/
def ofText (t : Text) : Scanner :=
  let c := Cursor.ofText t
  ⟨if c.head = some byteOrderMark then c.next else c, [], 0, [none], [], true, false⟩

/-- Whether a bracket is open. -/
def inFlow (s : Scanner) : Bool := 1 < s.keys.length

/-- Adds a token that ends where `after` begins. -/
def emit (s : Scanner) (form : Form) (after : Cursor) : Scanner :=
  { s with queue := s.queue ++ [⟨form, s.cursor.mark, after.mark⟩], cursor := after }

/-- Adds a token of the given number of characters. -/
def emitNext (s : Scanner) (form : Form) (size : Nat) : Scanner :=
  s.emit form (s.cursor.skip size)

/-! ## Keys -/

/-- Replaces what may be a key in the innermost bracket. -/
def setKey (s : Scanner) (key : Option SimpleKey) : Scanner :=
  { s with keys := key :: s.keys.drop 1 }

/-- What may be a key in the innermost bracket. -/
def key? (s : Scanner) : Option SimpleKey := s.keys.head?.join

/-- Ends reading because something that must be a key is none. -/
def failKey {α : Type} (s : Scanner) (key : SimpleKey) : Except Fault α :=
  fail (.scanning "a simple key") key.mark .noColon s.cursor.mark

/-- Gives up what may be a key in the innermost bracket. -/
def dropKey (s : Scanner) : Except Fault Scanner :=
  match s.key? with
  | some key => if key.required then s.failKey key else .ok (s.setKey none)
  | none => .ok s

/-- Remembers that what comes next may be a key. -/
def saveKey (s : Scanner) : Except Fault Scanner :=
  if s.keyAllowed then do
    let required := !s.inFlow && s.indents.head? = some s.cursor.mark.column
    let number := s.taken + s.queue.length
    return (← s.dropKey).setKey (some ⟨number, required, s.cursor.mark⟩)
  else .ok s

/-- Whether the colon behind a key can come no more: it stands on one line with its key. -/
def isStale (m : Mark) (key : SimpleKey) : Bool :=
  key.mark.line != m.line || 1024 < m.index - key.mark.index

/-- Gives up everything that can be a key no more. -/
def dropStale (s : Scanner) : Except Fault Scanner :=
  let stale := (s.keys.filterMap id).filter (isStale s.cursor.mark)
  match stale.find? (·.required) with
  | some key => s.failKey key
  | none =>
    .ok { s with keys := s.keys.map fun key => key.filter (!isStale s.cursor.mark ·) }

/-! ## Blocks -/

/-- Closes the blocks that are indented by more than the given column, or all of them. -/
def unwind (s : Scanner) (column : Option Nat) : Scanner :=
  if s.inFlow then s
  else
    let closed := s.indents.takeWhile fun indent => column.all (· < indent)
    let m := s.cursor.mark
    { s with
      indents := s.indents.drop closed.length
      queue := s.queue ++ closed.map fun _ => ⟨.blockEnd, m, m⟩ }

/-- Whether a block that begins in a column is a new one. -/
def opensBlock (s : Scanner) (column : Nat) : Bool :=
  !s.inFlow && s.indents.head?.all (· < column)

/-- Opens a block at the next token, if it is a new one. -/
def openBlock (s : Scanner) (form : Form) : Scanner :=
  let m := s.cursor.mark
  if s.opensBlock m.column then
    { s with indents := m.column :: s.indents, queue := s.queue ++ [⟨form, m, m⟩] }
  else s

/-- Ends reading at what may only stand at the start of a line. -/
def requireKeyAllowed (s : Scanner) (what : String) : Except Fault Unit :=
  if s.inFlow || s.keyAllowed then .ok () else failAlone (.notAllowed what) s.cursor.mark

/-! ## Tokens -/

/-- Skips spaces, comments and line ends. A key may begin on a new line outside brackets. -/
def skipGap : (bound : Nat) → Scanner → Scanner
  | 0, s => s
  | bound + 1, s =>
    let c := s.cursor.skipSpaces
    let c := if c.at? '#' then c.skipLine else c
    if c.head.any isBreak then
      skipGap bound { s with cursor := c.next, keyAllowed := s.keyAllowed || !s.inFlow }
    else { s with cursor := c }

/-- Adds a token that stands on a line of its own and closes all blocks. -/
def fetchMarker (s : Scanner) (form : Form) : Except Fault Scanner := do
  let s ← (s.unwind none).dropKey
  return { s with keyAllowed := false }.emitNext form 3

/-- Adds a directive. -/
def fetchDirective (s : Scanner) : Except Fault Scanner := do
  let s ← (s.unwind none).dropKey
  let (directive, after) ← readDirective s.cursor
  return { s with keyAllowed := false }.emit (.directive directive) after

/-- Adds the end of the text. -/
def fetchEnd (s : Scanner) : Except Fault Scanner := do
  let s ← (s.unwind none).dropKey
  return { s with keys := [none], keyAllowed := false, finished := true }.emitNext .streamEnd 0

/-- Opens a bracket, which may begin a key. -/
def fetchOpen (s : Scanner) (form : Form) : Except Fault Scanner := do
  let s ← s.saveKey
  return { s with keys := none :: s.keys, keyAllowed := true }.emitNext form 1

/-- Closes a bracket. -/
def fetchClose (s : Scanner) (form : Form) : Except Fault Scanner := do
  let s ← s.dropKey
  let keys := if s.inFlow then s.keys.drop 1 else s.keys
  return { s with keys, keyAllowed := false }.emitNext form 1

/-- Adds the comma between two items. -/
def fetchFlowEntry (s : Scanner) : Except Fault Scanner := do
  let s ← s.dropKey
  return { s with keyAllowed := true }.emitNext .flowEntry 1

/-- Adds the dash in front of an item. -/
def fetchBlockEntry (s : Scanner) : Except Fault Scanner := do
  s.requireKeyAllowed "sequence entries"
  let s ← (s.openBlock .blockSequenceStart).dropKey
  return { s with keyAllowed := true }.emitNext .blockEntry 1

/-- Adds the question mark in front of a key. -/
def fetchKey (s : Scanner) : Except Fault Scanner := do
  s.requireKeyAllowed "mapping keys"
  let s ← (s.openBlock .blockMappingStart).dropKey
  return { s with keyAllowed := !s.inFlow }.emitNext .key 1

/-- Puts the tokens that make something a key in front of it. -/
def insertKey (s : Scanner) (key : SimpleKey) : Scanner :=
  let place := key.number - s.taken
  let opens := s.opensBlock key.mark.column
  let marks : List Form := if opens then [.blockMappingStart, .key] else [.key]
  { s with
    queue := s.queue.take place ++ marks.map (⟨·, key.mark, key.mark⟩) ++ s.queue.drop place
    indents := if opens then key.mark.column :: s.indents else s.indents }

/-- Adds the colon in front of a value. -/
def fetchValue (s : Scanner) : Except Fault Scanner :=
  match s.key? with
  | some key =>
    let s := (s.setKey none).insertKey key
    .ok ({ s with keyAllowed := false }.emitNext .value 1)
  | none => do
    s.requireKeyAllowed "mapping values"
    let s ← (s.openBlock .blockMappingStart).dropKey
    return { s with keyAllowed := !s.inFlow }.emitNext .value 1

/-- Adds an anchor or an alias, which may begin a key. -/
def fetchAnchor (s : Scanner) (what : String) (form : Text → Form) : Except Fault Scanner := do
  let s ← s.saveKey
  let (name, after) ← readAnchor (.scanning what) s.cursor.mark s.cursor.next
  return { s with keyAllowed := false }.emit (form name) after

/-- Adds a tag, which may begin a key. -/
def fetchTag (s : Scanner) : Except Fault Scanner := do
  let s ← s.saveKey
  let ((handle, suffix), after) ← readTag s.cursor
  return { s with keyAllowed := false }.emit (.tag handle suffix) after

/-- The columns that the innermost block takes up. -/
def blockWidth (s : Scanner) : Nat := (s.indents.head?.map (· + 1)).getD 0

/-- Adds a block scalar. -/
def fetchBlock (s : Scanner) (folded : Bool) : Except Fault Scanner := do
  let s ← s.dropKey
  let (t, after) ← readBlock folded s.blockWidth s.cursor
  return { s with keyAllowed := true }.emit (.scalar t false) after

/-- Adds a quoted scalar, which may be a key. -/
def fetchQuoted (s : Scanner) (double : Bool) : Except Fault Scanner := do
  let s ← s.saveKey
  let (t, after) ← readQuoted double s.cursor
  return { s with keyAllowed := false }.emit (.scalar t false) after

/-- Adds a plain scalar, which may be a key. -/
def fetchPlain (s : Scanner) : Except Fault Scanner := do
  let s ← s.saveKey
  let read := readPlain s.inFlow s.blockWidth s.cursor
  return { s with
    keyAllowed := read.broken
    cursor := read.cursor
    queue := s.queue ++ [⟨.scalar read.text true, s.cursor.mark, read.stop⟩] }

/-- Adds the token that the next character begins by itself. -/
def fetchCharacter (s : Scanner) (x : Char) : Except Fault Scanner :=
  let isIndicator := isGap (s.cursor.peek 1)
  let other :=
    if startsPlain s.inFlow s.cursor then s.fetchPlain
    else .error (.marked (some (.scanning "for the next token", none))
      (.noTokenStart s.cursor.head) s.cursor.mark)
  match x with
  | '[' => s.fetchOpen .flowSequenceStart
  | '\x7b' => s.fetchOpen .flowMappingStart
  | ']' => s.fetchClose .flowSequenceEnd
  | '\x7d' => s.fetchClose .flowMappingEnd
  | ',' => s.fetchFlowEntry
  | '-' => if isIndicator then s.fetchBlockEntry else other
  | '?' => if s.inFlow || isIndicator then s.fetchKey else other
  | ':' => if s.inFlow || isIndicator then s.fetchValue else other
  | '*' => s.fetchAnchor "an alias" .reference
  | '&' => s.fetchAnchor "an anchor" .anchor
  | '!' => s.fetchTag
  | '|' => if s.inFlow then other else s.fetchBlock false
  | '>' => if s.inFlow then other else s.fetchBlock true
  | '\'' => s.fetchQuoted false
  | '"' => s.fetchQuoted true
  | _ => other

/-- Adds the next token and those that come with it. -/
def fetch (s : Scanner) : Except Fault Scanner := do
  let s ← (s.skipGap (s.cursor.rest.length + 1)).dropStale
  let s := s.unwind (some s.cursor.mark.column)
  let c := s.cursor
  let isMargin := c.mark.column = 0
  match c.head with
  | none => s.fetchEnd
  | some x =>
    if isMargin && c.at? '%' then s.fetchDirective
    else if isMargin && c.isMarker "---" then s.fetchMarker .documentStart
    else if isMargin && c.isMarker "..." then s.fetchMarker .documentEnd
    else match x with
      | .scalar x => s.fetchCharacter x
      | .surrogate _ => s.fetchPlain

/-! ## Handing out tokens -/

/-- Hands out the tokens that can be no part of a key any more. -/
def release (s : Scanner) : List Token × Scanner :=
  let count := ((s.keys.filterMap id).map (·.number - s.taken)).foldl min s.queue.length
  (s.queue.take count, { s with queue := s.queue.drop count, taken := s.taken + count })

end Scanner

/-- The tokens of a text, and the fault that ends them early, if there is one. -/
structure TokenStream where
  tokens : List Token
  fault : Option Fault

/-- Reads tokens to the end or to a fault. Every step but the last reads a character. -/
def scanFrom : (bound : Nat) → Scanner → TokenStream
  | 0, _ => ⟨[], none⟩
  | bound + 1, s =>
    match s.fetch >>= Scanner.dropStale with
    | .error fault => ⟨[], some fault⟩
    | .ok s =>
      let (tokens, s) := s.release
      if s.finished then ⟨tokens, none⟩
      else
        let more := scanFrom bound s
        ⟨tokens ++ more.tokens, more.fault⟩

/-- The tokens of a text. -/
def scan (t : Text) : TokenStream := scanFrom (t.length + 1) (.ofText t)

end HostScript.Yaml
