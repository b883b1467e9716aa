import PrefixRanking.Yaml.Node

/-!
# Open collections

A collection whose end has not been met.  It knows what may come next; a token can show that something
was left out (`Open.settle`), move the collection on (`Open.advance?`) or close it (`Open.closedBy`), and
finished nodes are put into it (`Open.place`).
-/

namespace PrefixRanking.Yaml

/-- Where an open mapping is. -/
inductive MappingState where
  /-- Before an entry, or at the end. -/
  | entry
  /-- Before the node of a key. -/
  | key
  /-- Behind a key. -/
  | afterKey (key : Node)
  /-- Before the node of a value. -/
  | value (key : Node)

/-- Where an open flow collection is between its commas. -/
inductive Comma where
  /-- Behind the opening bracket or a comma. -/
  | entry
  /-- Behind an entry. -/
  | next
deriving DecidableEq

/-- An open collection; the items and entries so far are held last one first. -/
inductive Open where
  | blockSequence (items : List Node) (inItem : Bool)
  /-- A block sequence that is no deeper than the mapping it is in. -/
  | flatSequence (items : List Node) (inItem : Bool)
  | blockMapping (entries : List (Node × Node)) (state : MappingState)
  | flowSequence (items : List Node) (comma : Comma)
  /-- A mapping of one entry written without braces in a flow sequence. -/
  | flowPair (entry : Option (Node × Node)) (state : MappingState)
  /-- A flow mapping; `lone` marks a key without question mark and colon. -/
  | flowMapping (entries : List (Node × Node)) (state : MappingState) (comma : Comma) (lone : Bool)

namespace Open

/-- A finished node in the open collection it belongs to. -/
def place (node : Node) : Open → Open
  | .blockSequence items _ => .blockSequence (node :: items) false
  | .flatSequence items _ => .flatSequence (node :: items) false
  | .blockMapping entries (.value k) => .blockMapping ((k, node) :: entries) .entry
  | .blockMapping entries _ => .blockMapping entries (.afterKey node)
  | .flowSequence items _ => .flowSequence (node :: items) .next
  | .flowPair _ (.value k) => .flowPair (some (k, node)) .entry
  | .flowPair entry _ => .flowPair entry (.afterKey node)
  | .flowMapping entries (.value k) _ _ => .flowMapping ((k, node) :: entries) .entry .next false
  | .flowMapping entries _ comma lone => .flowMapping entries (.afterKey node) comma lone

/-- The node of a finished collection. -/
def node (tag : Option String) : Open → Node
  | .blockSequence items _ => .sequence tag items.reverse
  | .flatSequence items _ => .sequence tag items.reverse
  | .flowSequence items _ => .sequence tag items.reverse
  | .blockMapping entries _ => .mapping tag entries.reverse
  | .flowMapping entries _ _ _ => .mapping tag entries.reverse
  | .flowPair entry _ => .mapping tag entry.toList

/-! ## What a token shows to be left out -/

/-- Put in the empty nodes that a token shows to be left out of a block mapping. -/
def settleBlockMapping (entries : List (Node × Node)) (state : MappingState) (t : Token) : Open :=
  let nothing := Node.scalar .empty
  let skips := t = .key || t = .value || t = .blockEnd
  match state with
  | .key =>
    if !skips then .blockMapping entries .key
    else if t = .value then .blockMapping entries (.afterKey nothing)
    else .blockMapping ((nothing, nothing) :: entries) .entry
  | .afterKey k =>
    if t = .value then .blockMapping entries (.afterKey k)
    else .blockMapping ((k, nothing) :: entries) .entry
  | .value k =>
    if skips then .blockMapping ((k, nothing) :: entries) .entry else .blockMapping entries (.value k)
  | .entry => .blockMapping entries .entry

/-- The same in a flow mapping. -/
def settleFlowMapping (entries : List (Node × Node)) (state : MappingState) (comma : Comma)
    (lone : Bool) (t : Token) : Open :=
  let nothing := Node.scalar .empty
  let ends := t = .flowEntry || t = .flowMappingEnd
  match state with
  | .key =>
    if t = .value then .flowMapping entries (.afterKey nothing) comma lone
    else if ends then .flowMapping ((nothing, nothing) :: entries) .entry .next false
    else .flowMapping entries .key comma lone
  | .afterKey k =>
    if t = .value && !lone then .flowMapping entries (.afterKey k) comma lone
    else .flowMapping ((k, nothing) :: entries) .entry .next false
  | .value k =>
    if ends then .flowMapping ((k, nothing) :: entries) .entry .next false
    else .flowMapping entries (.value k) comma lone
  | .entry => .flowMapping entries .entry comma lone

/-- The same in a pair; an absent key takes the token with it. -/
def settlePair (entry : Option (Node × Node)) (state : MappingState) (t : Token) : Open :=
  let nothing := Node.scalar .empty
  match state with
  | .afterKey k =>
    if t = .value then .flowPair entry (.afterKey k) else .flowPair (some (k, nothing)) .entry
  | .value k =>
    if t = .flowEntry || t = .flowSequenceEnd then .flowPair (some (k, nothing)) .entry
    else .flowPair entry (.value k)
  | state => .flowPair entry state

/-- Put in the empty nodes that a token shows to be left out of a collection. -/
def settle (t : Token) : Open → Open
  | .blockSequence items true =>
    if t = .blockEntry || t = .blockEnd then .blockSequence (.scalar .empty :: items) false
    else .blockSequence items true
  | .flatSequence items true =>
    if t = .blockEntry || t = .key || t = .value || t = .blockEnd then
      .flatSequence (.scalar .empty :: items) false
    else .flatSequence items true
  | .blockMapping entries state => settleBlockMapping entries state t
  | .flowMapping entries state comma lone => settleFlowMapping entries state comma lone t
  | .flowPair entry state => settlePair entry state t
  | content => content

/-! ## What belongs to the collection itself -/

/-- Take a token that belongs to an open collection itself and not to a node in it. -/
def advance? (t : Token) : Open → Option Open
  | .blockSequence items false => if t = .blockEntry then some (.blockSequence items true) else none
  | .flatSequence items false => if t = .blockEntry then some (.flatSequence items true) else none
  | .blockMapping entries .entry => if t = .key then some (.blockMapping entries .key) else none
  | .blockMapping entries (.afterKey k) =>
    if t = .value then some (.blockMapping entries (.value k)) else none
  | .flowSequence items .next => if t = .flowEntry then some (.flowSequence items .entry) else none
  | .flowPair entry .key =>
    if t = .value || t = .flowEntry || t = .flowSequenceEnd then
      some (.flowPair entry (.afterKey (.scalar .empty)))
    else none
  | .flowPair entry (.afterKey k) => if t = .value then some (.flowPair entry (.value k)) else none
  | .flowMapping entries .entry .next _ =>
    if t = .flowEntry then some (.flowMapping entries .entry .entry false) else none
  | .flowMapping entries .entry .entry _ =>
    if t = .key then some (.flowMapping entries .key .entry false) else none
  | .flowMapping entries (.afterKey k) comma false =>
    if t = .value then some (.flowMapping entries (.value k) comma false) else none
  | _ => none

/-- Does the token close this collection? -/
def closedBy (t : Token) : Open → Bool
  | .blockSequence _ false => t = .blockEnd
  | .blockMapping _ .entry => t = .blockEnd
  | .flowSequence _ _ => t = .flowSequenceEnd
  | .flowMapping _ .entry _ _ => t = .flowMappingEnd
  | _ => false

/-- Mark that a node started in a flow mapping without a question mark is a key. -/
def beforeNode : Open → Open
  | .flowMapping entries .entry .entry _ => .flowMapping entries .key .entry true
  | content => content

/-! ## Text that stops being readable -/

/-- An open collection that stops being readable; `part` is the node in it that does, if there is
one. -/
def abandon (tag : Option String) (part : Option Node) : Open → Node
  | .blockSequence items _ | .flatSequence items _ | .flowSequence items _ =>
    .sequence tag (items.reverse ++ part.toList ++ [.missing])
  | .blockMapping entries state | .flowMapping entries state _ _ =>
    .mapping tag (entries.reverse ++ rest state ++ [(.missing, .missing)])
  | .flowPair entry state => .mapping tag (entry.toList ++ rest state ++ [(.missing, .missing)])
where
  /-- The entry that is not finished. -/
  rest : MappingState → List (Node × Node)
    | .entry => []
    | .key => [(part.getD .missing, .missing)]
    | .afterKey k => [(k, .missing)]
    | .value k => [(k, part.getD .missing)]

end Open

end PrefixRanking.Yaml
