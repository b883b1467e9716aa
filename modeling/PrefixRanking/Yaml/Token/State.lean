import PrefixRanking.Yaml.Token.Property

/-!
# Taking a token from YAML text

A `TokenState` holds the text that is left and the tokens so far.  What stands at the cursor may turn out
to be a key: that is known only when a colon follows on the same line, and within 1024 octets.  So
the state remembers, for the block level and each open flow collection, the `KeyStart` that a colon would
refer to; the colon then puts the `key` token in front of it.

`TokenState.step?` takes one token, with the block tokens that follow from its column.
-/

namespace PrefixRanking.Yaml

/-- A place where a key may have started. -/
structure KeyStart where
  /-- The number of tokens before it. -/
  token : Nat
  pos : Position
  /-- Must it be a key, because it stands where the keys of a block mapping start? -/
  required : Bool
deriving DecidableEq

/-- The state of dividing a text. -/
structure TokenState where
  cursor : Cursor
  /-- The columns of the open block collections, the innermost first. -/
  indents : List Nat
  /-- The possible key of the innermost level. -/
  keyStart : Option KeyStart
  /-- The possible keys of the levels around the open flow collections, the innermost first. -/
  outer : List (Option KeyStart)
  /-- May a key start at the cursor? -/
  keyAllowed : Bool
  /-- The tokens so far, the last one first, and their number. -/
  tokens : List Token
  count : Nat
  /-- Has the end of the text been reached? -/
  ended : Bool

namespace TokenState

/-- The state at the start of a text. -/
def start (cs : List Char) : TokenState where
  cursor := ⟨cs, .start⟩
  indents := []
  keyStart := none
  outer := []
  keyAllowed := true
  tokens := []
  count := 0
  ended := false

/-- Is a flow collection open? -/
def inFlow (s : TokenState) : Bool := !s.outer.isEmpty

/-- The state with one more token. -/
def add (s : TokenState) (t : Token) : TokenState :=
  { s with tokens := t :: s.tokens, count := s.count + 1 }

/-- The state with tokens put in front of the token with this number. -/
def insert (s : TokenState) (number : Nat) (ts : List Token) : TokenState :=
  let later := s.count - number
  { s with
    tokens := s.tokens.take later ++ ts.reverse ++ s.tokens.drop later
    count := s.count + ts.length }

/-- The state with the cursor moved over characters of the same line. -/
def forward (s : TokenState) (n : Nat) : TokenState := { s with cursor := s.cursor.forward n }

/-- The number of tokens that are certain: those before the first possible key. -/
def certain (s : TokenState) : Nat :=
  (s.keyStart :: s.outer).foldl (fun n k => match k with
    | some k => min n k.token
    | none => n) s.count

/-! ## Possible keys -/

/-- Has the cursor gone too far for a colon to refer to this key? -/
def isStale (s : TokenState) (k : KeyStart) : Bool :=
  k.pos.line < s.cursor.pos.line || k.pos.offset + 1024 < s.cursor.pos.offset

/-- Forget the possible keys that are too far away; a required one must not be. -/
def dropStale? (s : TokenState) : Option TokenState :=
  let gone (k : Option KeyStart) : Bool := k.any s.isStale
  let keep (k : Option KeyStart) : Option KeyStart := if gone k then none else k
  if (s.keyStart :: s.outer).any (fun k => gone k && k.any KeyStart.required) then none
  else some { s with keyStart := keep s.keyStart, outer := s.outer.map keep }

/-- Forget the possible key of the innermost level; a required one must not be forgotten. -/
def dropKey? (s : TokenState) : Option TokenState :=
  if s.keyStart.any KeyStart.required then none else some { s with keyStart := none }

/-- Remember the cursor as a possible key, if one may start there. -/
def saveKey? (s : TokenState) : Option TokenState :=
  if s.keyAllowed then do
    let s ← s.dropKey?
    let required := !s.inFlow && s.indents.head? == some s.cursor.pos.column
    return { s with keyStart := some ⟨s.count, s.cursor.pos, required⟩ }
  else some s

/-! ## Indentation -/

/-- Is a column to the right of the innermost open block collection? -/
def isDeeper (s : TokenState) (column : Nat) : Bool :=
  match s.indents with
  | [] => true
  | n :: _ => decide (n < column)

/-- Open a block collection at a column, if it is to the right of the one that is open; its token is put
in front of the token with this number. -/
def openBlock (s : TokenState) (column number : Nat) (t : Token) : TokenState :=
  if !s.inFlow && s.isDeeper column then
    { s.insert number [t] with indents := column :: s.indents }
  else s

/-- Close the block collections to the right of a column. -/
def closeDeeper (s : TokenState) (column : Nat) : TokenState :=
  let n := (s.indents.takeWhile fun i => decide (column < i)).length
  if s.inFlow then s
  else { s with
    tokens := List.replicate n .blockEnd ++ s.tokens
    count := s.count + n
    indents := s.indents.drop n }

/-- Close all block collections. -/
def closeAll (s : TokenState) : TokenState :=
  if s.inFlow then s
  else { s with
    tokens := List.replicate s.indents.length .blockEnd ++ s.tokens
    count := s.count + s.indents.length
    indents := [] }

/-! ## The way to the next token -/

/-- Skip blanks, comments and line breaks.  In a block, a key may start after a line break, and a tab is
skipped only where no key may start.  A byte order mark may stand at the start of a line. -/
def skipFrom (flow : Bool) : Bool → Bool → Position → List Char → Bool × Cursor
  | allowed, _, pos, [] => (allowed, ⟨[], pos⟩)
  | allowed, _, pos, '\r' :: '\n' :: rest =>
    skipFrom flow (allowed || !flow) false (pos.newLine 2) rest
  | allowed, comment, pos, c :: rest =>
    if isBreak c then skipFrom flow (allowed || !flow) false (pos.newLine c.utf8Size) rest
    else if comment then skipFrom flow allowed true (pos.next c) rest
    else if c == '\ufeff' && pos.column == 0 then skipFrom flow allowed false (pos.next c) rest
    else if c == ' ' || (c == '\t' && (flow || !allowed)) then
      skipFrom flow allowed false (pos.next c) rest
    else if c == '#' then skipFrom flow allowed true (pos.next c) rest
    else (allowed, ⟨c :: rest, pos⟩)

/-- The state with the cursor at the next token. -/
def toNext (s : TokenState) : TokenState :=
  let (allowed, cursor) := skipFrom s.inFlow s.keyAllowed false s.cursor.pos s.cursor.rest
  { s with keyAllowed := allowed, cursor }

/-! ## Single tokens -/

/-- The end of the text. -/
def fetchEnd? (s : TokenState) : Option TokenState := do
  let s :=
    if s.cursor.pos.column = 0 then s
    else { s with cursor := { s.cursor with pos := s.cursor.pos.newLine 0 } }
  let s ← s.closeAll.dropKey?
  return { s.add .streamEnd with keyAllowed := false, ended := true }

/-- A directive. -/
def fetchDirective? (s : TokenState) : Option TokenState := do
  let s ← s.closeAll.dropKey?
  let (t, cursor) ← directive? s.cursor
  return { s.add t with keyAllowed := false, cursor }

/-- A document marker. -/
def fetchMarker? (s : TokenState) (t : Token) : Option TokenState := do
  let s ← s.closeAll.dropKey?
  return { (s.add t).forward 3 with keyAllowed := false }

/-- The start of a flow collection, which may be a key as a whole. -/
def fetchFlowStart? (s : TokenState) (t : Token) : Option TokenState := do
  let s ← s.saveKey?
  return { (s.add t).forward 1 with
    keyStart := none, outer := s.keyStart :: s.outer, keyAllowed := true }

/-- The end of a flow collection. -/
def fetchFlowEnd? (s : TokenState) (t : Token) : Option TokenState := do
  let s ← s.dropKey?
  return { (s.add t).forward 1 with
    keyStart := s.outer.headD none, outer := s.outer.drop 1, keyAllowed := false }

/-- A comma between the entries of a flow collection. -/
def fetchFlowEntry? (s : TokenState) : Option TokenState := do
  let s ← s.dropKey?
  return { (s.add .flowEntry).forward 1 with keyAllowed := true }

/-- The dash of an entry of a block sequence. -/
def fetchBlockEntry? (s : TokenState) : Option TokenState := do
  if !s.inFlow && !s.keyAllowed then none
  else
    let s ← (s.openBlock s.cursor.pos.column s.count .blockSequenceStart).dropKey?
    return { (s.add .blockEntry).forward 1 with keyAllowed := true }

/-- The question mark of a key. -/
def fetchKey? (s : TokenState) : Option TokenState := do
  if !s.inFlow && !s.keyAllowed then none
  else
    let s ← (s.openBlock s.cursor.pos.column s.count .blockMappingStart).dropKey?
    return { (s.add .key).forward 1 with keyAllowed := !s.inFlow }

/-- The colon before a value.  It refers to the possible key, if there is one. -/
def fetchValue? (s : TokenState) : Option TokenState :=
  match s.keyStart with
  | some k =>
    let s := s.insert k.token [.key]
    let s := s.openBlock k.pos.column k.token .blockMappingStart
    some { (s.add .value).forward 1 with keyStart := none, keyAllowed := false }
  | none =>
    if !s.inFlow && !s.keyAllowed then none
    else
      let s := s.openBlock s.cursor.pos.column s.count .blockMappingStart
      some { (s.add .value).forward 1 with keyAllowed := !s.inFlow }

/-- An alias or an anchor. -/
def fetchAnchor? (s : TokenState) (token : String → Token) : Option TokenState := do
  let s ← s.saveKey?
  let (name, cursor) ← anchorName? s.cursor
  return { s.add (token name) with keyAllowed := false, cursor }

/-- A tag. -/
def fetchTag? (s : TokenState) : Option TokenState := do
  let s ← s.saveKey?
  let (t, cursor) ← tag? s.inFlow s.cursor
  return { s.add t with keyAllowed := false, cursor }

/-- A block scalar, which is no key, but behind which one may start. -/
def fetchBlockScalar? (s : TokenState) (folded : Bool) : Option TokenState := do
  let s ← s.dropKey?
  let (text, cursor) ← blockScalar? folded s.indents.head? (s.cursor.forward 1)
  let style := if folded then Style.folded else .literal
  return { s.add (.scalar (String.ofList text) style) with keyAllowed := true, cursor }

/-- A scalar between quotes. -/
def fetchQuoted? (s : TokenState) (single : Bool) : Option TokenState := do
  let s ← s.saveKey?
  let c := s.cursor.forward 1
  let (text, cursor) ← quotedFrom single (.text .none) c.pos c.rest
  return { s.add (.scalar (String.ofList text) .quoted) with keyAllowed := false, cursor }

/-- A plain scalar with this first character.  Behind a line break a key may start again. -/
def fetchPlain? (s : TokenState) (first : Char) : Option TokenState := do
  let s ← s.saveKey?
  let indent := match s.indents with
    | [] => 0
    | n :: _ => n + 1
  let c := s.cursor.forward 1
  let p ← plainFrom s.inFlow indent .none c.pos c.rest
  return { s.add (.scalar (String.ofList (first :: p.text)) .plain) with
    keyAllowed := p.broken, cursor := p.cursor }

/-- Characters that cannot start a plain scalar. -/
def isIndicator (c : Char) : Bool :=
  ['-', '?', ':', ',', '[', ']', '{', '}', '#', '&', '*', '!', '|', '>', '\'', '\x22', '%', '@',
    '\x60'].contains c

/-- Can a plain scalar start with this character, before this one? -/
def startsPlain (flow : Bool) (c : Char) (next : Option Char) : Bool :=
  !(isBlank c || isBreak c || isIndicator c) ||
    (c == '-' && !(next.any isBlank)) || (!flow && (c == '?' || c == ':') && !blankOrEnd next)

/-- The token at the cursor. -/
def fetch? (s : TokenState) : Option TokenState :=
  match s.cursor.rest with
  | [] => s.fetchEnd?
  | c :: rest =>
    let lineStart := s.cursor.pos.column == 0
    let apart := blankOrEnd rest.head?
    if lineStart && c == '%' then s.fetchDirective?
    else if lineStart && startsMarker '-' (c :: rest) then s.fetchMarker? .documentStart
    else if lineStart && startsMarker '.' (c :: rest) then s.fetchMarker? .documentEnd
    else if c == '[' then s.fetchFlowStart? .flowSequenceStart
    else if c == '{' then s.fetchFlowStart? .flowMappingStart
    else if c == ']' then s.fetchFlowEnd? .flowSequenceEnd
    else if c == '}' then s.fetchFlowEnd? .flowMappingEnd
    else if c == ',' then s.fetchFlowEntry?
    else if c == '-' && apart then s.fetchBlockEntry?
    else if c == '?' && (s.inFlow || apart) then s.fetchKey?
    else if c == ':' && (s.inFlow || apart) then s.fetchValue?
    else if c == '*' then s.fetchAnchor? .alias
    else if c == '&' then s.fetchAnchor? .anchor
    else if c == '!' then s.fetchTag?
    else if c == '|' && !s.inFlow then s.fetchBlockScalar? false
    else if c == '>' && !s.inFlow then s.fetchBlockScalar? true
    else if c == '\'' then s.fetchQuoted? true
    else if c == '\x22' then s.fetchQuoted? false
    else if startsPlain s.inFlow c rest.head? then s.fetchPlain? c
    else none

/-- One token more, with those that follow from it. -/
def step? (s : TokenState) : Option TokenState := do
  let s ← s.toNext.dropStale?
  let s ← (s.closeDeeper s.cursor.pos.column).fetch?
  s.dropStale?

end TokenState

end PrefixRanking.Yaml
