import PrefixRanking.Yaml.Node.Anchors
import PrefixRanking.Yaml.Node.Open

/-!
# Composing nodes from tokens

The tokens are taken one by one.  A `Builder` holds the open collections, the innermost first, and the
anchor and tag that wait for their node.  A token is first given the chance to `settle` what it shows to be
left out (an empty value, the end of a sequence that is not indented); then it is `accept`ed.  Where no
token is acceptable, or the tokens end too early, the open collections are closed with `missing` nodes.
-/

namespace PrefixRanking.Yaml

/-- The anchor and tag in front of a node. -/
structure Properties where
  /-- The anchor's name and the number under which the node is entered. -/
  anchor : Option String
  tag : Option String
deriving DecidableEq

/-- No anchor and no tag. -/
def Properties.none : Properties := ⟨.none, .none⟩

/-- Is there neither an anchor nor a tag? -/
def Properties.isNone (p : Properties) : Bool := p.anchor.isNone && p.tag.isNone

/-- An open collection with its tag and the serial number of its anchor. -/
structure Frame where
  content : Open
  tag : Option String
  serial : Option Nat

/-- Where the composition of a document is. -/
inductive Stage where
  /-- Before the document. -/
  | start
  /-- In its directives: is there a version, and which handles are expanded? -/
  | directives (version : Bool)
  /-- Behind the marker that starts it. -/
  | content
  /-- In its root node. -/
  | root
  /-- Behind its root node. -/
  | after (root : Node)
  /-- At the end of the text. -/
  | finished (root : Node)

/-- The state of composing a document. -/
structure Builder where
  stage : Stage
  /-- The expansions of tag handles. -/
  handles : List (String × String)
  /-- The open collections, the innermost first. -/
  frames : List Frame
  properties : Properties
  anchors : Anchors

namespace Builder

/-- The state before the first token. -/
def start : Builder := ⟨.start, [], [], .none, .empty⟩

/-- What a tag handle expands to. -/
def expansion? (b : Builder) (handle : String) : Option String :=
  match b.handles.lookup handle with
  | some e => some e
  | none =>
    if handle = "" then some ""
    else if handle = "!" then some "!"
    else if handle = "!!" then some "tag:yaml.org,2002:"
    else none

/-! ## Placing nodes -/

/-- A finished node in the innermost collection, or as the root. -/
def place (b : Builder) (node : Node) : Builder :=
  match b.frames with
  | [] => { b with stage := .after node }
  | f :: fs => { b with frames := { f with content := f.content.place node } :: fs }

/-- A node without parts, with the waiting anchor. -/
def leaf (b : Builder) (node : Node) : Builder :=
  let (anchors, serial) := b.anchors.enter b.properties.anchor
  { b with anchors := anchors.finish serial node, properties := .none }.place node

/-- The scalar where nothing is written, with the waiting anchor and tag. -/
def emptyLeaf (b : Builder) : Builder :=
  b.leaf (.scalar { Scalar.empty with tag := b.properties.tag })

/-- Open a collection, with the waiting anchor and tag. -/
def openWith (b : Builder) (content : Open) : Builder :=
  let (anchors, serial) := b.anchors.enter b.properties.anchor
  { b with
    anchors, properties := .none, frames := ⟨content, b.properties.tag, serial⟩ :: b.frames }

/-- Close the innermost collection. -/
def close (b : Builder) : Builder :=
  match b.frames with
  | [] => b
  | f :: fs =>
    let node := f.content.node f.tag
    { b with frames := fs, anchors := b.anchors.finish f.serial node }.place node

/-- Replace the innermost collection by one in another state. -/
def setTop (b : Builder) (content : Open) : Builder :=
  match b.frames with
  | [] => b
  | f :: fs => { b with frames := { f with content } :: fs }

/-! ## What a token shows to be left out -/

/-- Is the token one that may start a node, where `block` collections may start and where a `flat`
sequence may? -/
def startsNode (block flat : Bool) : Token → Bool
  | .scalar .. | .flowSequenceStart | .flowMappingStart => true
  | .blockSequenceStart | .blockMappingStart => block
  | .blockEntry => flat
  | _ => false

/-- Does a node wait to be started in the innermost collection?  If so: may it be a block collection, and
may it be a flat sequence? -/
def awaits (b : Builder) : Option (Bool × Bool) :=
  match b.frames with
  | [] => match b.stage with
    | .root => some (true, false)
    | _ => none
  | f :: _ => match f.content with
    | .blockSequence _ true | .flatSequence _ true => some (true, false)
    | .blockMapping _ .key | .blockMapping _ (.value _) => some (true, true)
    | .flowSequence _ .entry => some (false, false)
    | .flowPair _ .key | .flowPair _ (.value _) => some (false, false)
    | .flowMapping _ .key _ _ | .flowMapping _ (.value _) _ _ => some (false, false)
    | .flowMapping _ .entry .entry _ => some (false, false)
    | _ => none

/-- Complete a waiting anchor or tag with the empty scalar, where the token neither starts a node nor is
the other of the two. -/
def settleProperties (b : Builder) (t : Token) : Builder :=
  if b.properties.isNone then b
  else match b.awaits, t with
    | _, .anchor _ => if b.properties.anchor.isSome then b.emptyLeaf else b
    | _, .tag .. => if b.properties.tag.isSome then b.emptyLeaf else b
    | some (block, flat), t => if startsNode block flat t then b else b.emptyLeaf
    | none, _ => b

/-- Settle the innermost collection. -/
def settleTop (b : Builder) (t : Token) : Builder :=
  match b.frames with
  | [] => b
  | f :: fs => { b with frames := { f with content := f.content.settle t } :: fs }

/-- Does the token end the innermost collection without belonging to it? -/
def endsTop (b : Builder) (t : Token) : Bool :=
  match b.frames with
  | { content := .flatSequence _ false, .. } :: _ => t != .blockEntry
  | { content := .flowPair (some _) .entry, .. } :: _ => true
  | _ => false

/-- Is the token one that shows a document to be empty? -/
def endsContent : Token → Bool
  | .versionDirective .. | .tagDirective .. | .documentStart | .documentEnd | .streamEnd => true
  | _ => false

/-- Settle everything that a token shows to be left out. -/
def settle (b : Builder) (t : Token) : Builder :=
  match b.stage with
  | .content => if endsContent t then { b with stage := .after (.scalar .empty) } else b
  | .root =>
    let b := (b.settleProperties t).settleTop t
    if b.endsTop t then b.close.settleTop t else b
  | _ => b

/-! ## Accepting a token -/

/-- Start a node. -/
def startNode? (b : Builder) (block flat : Bool) (t : Token) : Option Builder :=
  match t with
  | .alias name =>
    if b.properties.isNone then (b.anchors.number? name).map fun n => b.place (.alias n) else none
  | .anchor name =>
    if b.properties.anchor.isNone then
      some { b with properties := { b.properties with anchor := some name } }
    else none
  | .tag handle suffix =>
    if b.properties.tag.isNone then
      (b.expansion? handle).map fun e =>
        { b with properties := { b.properties with tag := some (e ++ suffix) } }
    else none
  | .scalar text style => some (b.leaf (.scalar ⟨text, style, b.properties.tag⟩))
  | .flowSequenceStart => some (b.openWith (.flowSequence [] .entry))
  | .flowMappingStart => some (b.openWith (.flowMapping [] .entry .entry false))
  | .blockSequenceStart => if block then some (b.openWith (.blockSequence [] false)) else none
  | .blockMappingStart => if block then some (b.openWith (.blockMapping [] .entry)) else none
  | .blockEntry => if flat then some (b.openWith (.flatSequence [] true)) else none
  | _ => none

/-- Accept a token inside the root node. -/
def acceptInside? (b : Builder) (t : Token) : Option Builder :=
  match b.frames with
  | [] => match b.stage with
    | .root => b.startNode? true false t
    | _ => none
  | f :: _ =>
    if b.properties.isNone && f.content.closedBy t then some b.close
    else match f.content, t with
      | .flowSequence _ .entry, .key =>
        if b.properties.isNone then some (b.openWith (.flowPair none .key)) else none
      | content, t =>
        match (if b.properties.isNone then content.advance? t else none) with
        | some content => some (b.setTop content)
        | none =>
          match b.awaits with
          | some (block, flat) => (b.setTop content.beforeNode).startNode? block flat t
          | none => none

/-- Is this a version of the language that is understood? -/
def isKnownVersion (major minor : Nat) : Bool := major = 1 && (minor = 1 || minor = 2)

/-- Accept a directive in front of the document. -/
def acceptDirective? (b : Builder) (version : Bool) : Token → Option Builder
  | .versionDirective major minor =>
    if version || !isKnownVersion major minor then none
    else some { b with stage := .directives true }
  | .tagDirective handle expansion =>
    if (b.handles.lookup handle).isSome then none
    else some { b with stage := .directives version, handles := (handle, expansion) :: b.handles }
  | .documentStart => some { b with stage := .content }
  | _ => none

/-- Accept a token, what it shows to be left out being settled. -/
def accept? (b : Builder) (t : Token) : Option Builder :=
  match b.stage with
  | .start =>
    match t with
    | .streamEnd => some { b with stage := .finished (.scalar .empty) }
    | .versionDirective .. | .tagDirective .. | .documentStart => b.acceptDirective? false t
    | t => { b with stage := .root }.acceptInside? t
  | .directives version => b.acceptDirective? version t
  | .content => { b with stage := .root }.acceptInside? t
  | .root => b.acceptInside? t
  | .after root =>
    match t with
    | .documentEnd => some b
    | .streamEnd => some { b with stage := .finished root }
    | _ => none
  | .finished _ => none

/-! ## The end -/

/-- Close all collections where the text stops being readable: the root, and the anchors. -/
def abandonFrames : List Frame → Option Node → Anchors → Option Node × Anchors
  | [], part, a => (part, a)
  | f :: fs, part, a =>
    let node := f.content.abandon f.tag part
    abandonFrames fs (some node) (a.finish f.serial node)

/-- The document, where no further token is there. -/
def finish (b : Builder) : Document :=
  match b.stage with
  | .finished root => ⟨root, b.anchors.table, true⟩
  | .after root => ⟨root, b.anchors.table, false⟩
  | _ =>
    let (root, anchors) := abandonFrames b.frames none b.anchors
    ⟨root.getD .missing, anchors.table, false⟩

/-- Take tokens as long as they are acceptable.  A token that is not still shows what is left out in
front of it. -/
def feed (b : Builder) : List Token → Builder
  | [] => b
  | t :: ts =>
    let b := b.settle t
    match b.accept? t with
    | some b => b.feed ts
    | none => b

end Builder

/-- The document of the certain tokens of a text.  `whole` tells whether they are all of its tokens. -/
def Document.ofTokens (tokens : List Token) (whole : Bool) : Document :=
  let d := (Builder.start.feed tokens).finish
  { d with complete := d.complete && whole }

end PrefixRanking.Yaml
