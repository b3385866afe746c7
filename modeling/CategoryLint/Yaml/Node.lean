import CategoryLint.Yaml.Tag
import CategoryLint.Yaml.Token

/-!
# Nodes

The tokens of a document as a graph of nodes. A node is a scalar, a sequence or a mapping,
and is known by its number; an alias is the number of the node that its anchor names, which
may be one that the alias is part of. The readers follow the grammar, each taking the tokens
of one production off the head of the list.
-/

namespace CategoryLint.Yaml

variable [Limits]

/-- What is in a node; parts are given by their numbers. -/
inductive Content where
  /-- A scalar. -/
  | scalar (text : TextValue)
  /-- A sequence. -/
  | sequence (items : List Nat)
  /-- A mapping. -/
  | mapping (pairs : List (Nat × Nat))

/-- A node of a document. -/
structure Node where
  /-- Its tag. -/
  tag : Tag
  /-- What is in it. -/
  content : Content

/-- The nodes of a document, by their numbers. -/
abbrev Nodes := Array Node

/-- How far the tokens of a document have been read. -/
structure Reading where
  /-- The tokens that are left. -/
  tokens : List Token
  /-- The anchors so far, and the nodes that they name. -/
  anchors : List (String × Nat) := []
  /-- The nodes so far. -/
  nodes : Nodes := #[]
  /-- The number of collections that are open. -/
  level : Nat := 0

/-- What handles stand for at the start of a tag. -/
abbrev Handles := List (String × String)

/-- The handles that need no directive. -/
def defaultHandles : Handles := [("!", "!"), ("!!", tagStem)]

/-- The fault that a token is not the one that must be there. -/
def Reading.unexpected (r : Reading) : Fault :=
  match r.tokens with
  | .fault f :: _ => f
  | _ => .invalid

/-- What stands before the content of a node. -/
structure Properties where
  /-- The name of the node. -/
  anchor : Option String := none
  /-- The full name of its tag. -/
  tag : Option String := none

/-- The tag of a node, if it is a particular one. -/
def Properties.tag? (p : Properties) : Option Tag :=
  (p.tag.filter (· ≠ "!")).map Tag.ofName

/-- The tag of a scalar: the one it has, or what its text looks like, or a text's. -/
def Properties.scalarTag (p : Properties) (text : TextValue) (plain : Bool) : Tag :=
  match p.tag? with
  | some tag => tag
  | none => if plain || p.tag.isSome then Tag.ofText text else .str

/-- The full name of a tag. -/
def fullTag (handles : Handles) (tag : RawTag) : Except Fault String :=
  match tag.handle with
  | none => .ok tag.suffix
  | some handle =>
    match handles.lookup handle with
    | some text => .ok (text ++ tag.suffix)
    | none => .error .invalid

namespace Reading

/-- The anchor and the tag of a node, in either order. -/
def properties (handles : Handles) (r : Reading) : Except Fault (Properties × Reading) :=
  match r.tokens with
  | .anchor name :: .tag tag :: ts | .tag tag :: .anchor name :: ts =>
    (fullTag handles tag).map fun tag =>
      ({ anchor := some name, tag := some tag }, { r with tokens := ts })
  | .anchor name :: ts => .ok ({ anchor := some name }, { r with tokens := ts })
  | .tag tag :: ts =>
    (fullTag handles tag).map fun tag => ({ tag := some tag }, { r with tokens := ts })
  | _ => .ok ({}, r)

/-- Refuses a name that another node has. -/
def checkAnchor (r : Reading) : Option String → Except Fault Unit
  | none => .ok ()
  | some name => if (r.anchors.lookup name).isSome then .error .invalid else .ok ()

/-- The node that an alias stands for. -/
def alias? (r : Reading) (name : String) : Except Fault Nat :=
  match r.anchors.lookup name with
  | some node => .ok node
  | none => .error .invalid

/-- Adds a node, with its name if it has one. -/
def add (r : Reading) (anchor : Option String) (node : Node) : Nat × Reading :=
  let number := r.nodes.size
  (number,
    { r with
      nodes := r.nodes.push node
      anchors :=
        match anchor with
        | some name => (name, number) :: r.anchors
        | none => r.anchors })

/-- Adds a scalar that is not written. -/
def addEmpty (r : Reading) : Nat × Reading := r.add none ⟨.null, .scalar (.plain "")⟩

/-- Adds a collection whose parts are still to be read. -/
def openCollection (r : Reading) (p : Properties) (tag : Tag) (content : Content) :
    Except Fault (Nat × Reading) :=
  if Limits.document ≤ r.level then .error (.tooDeep .document)
  else
    let (number, r) := r.add p.anchor ⟨p.tag?.getD tag, content⟩
    .ok (number, { r with level := r.level + 1 })

/-- Gives a collection its parts. -/
def closeCollection (r : Reading) (number : Nat) (content : Content) : Nat × Reading :=
  (number,
    { r with nodes := r.nodes.modify number ({ · with content }), level := r.level - 1 })

/-- The reading after the next token. -/
def next (r : Reading) : Reading := { r with tokens := r.tokens.drop 1 }

/-- Whether the next token is one of some. -/
def meets (r : Reading) (test : Token → Bool) : Bool := r.tokens.head?.any test

end Reading

/-- Whether a token ends or starts a part of a mapping in a block, so that the part
    before it is empty. -/
def Token.endsBlockPart : Token → Bool
  | .key | .value | .blockEnd => true
  | _ => false

/-- Whether a token ends an item of a sequence in a block. -/
def Token.endsBlockItem : Token → Bool
  | .blockEntry | .blockEnd => true
  | _ => false

/-- Whether a token ends a part of a flow sequence. -/
def Token.endsSequencePart : Token → Bool
  | .flowEntry | .flowSequenceEnd => true
  | _ => false

/-- Whether a token ends a part of a flow mapping. -/
def Token.endsMappingPart : Token → Bool
  | .flowEntry | .flowMappingEnd => true
  | _ => false

/-- Whether a token starts a value. -/
def Token.isValue : Token → Bool
  | .value => true
  | _ => false

/-- A node without content, which needs an anchor or a tag. -/
def readNothing (p : Properties) (r : Reading) : Except Fault (Nat × Reading) :=
  if p.anchor.isSome || p.tag.isSome then
    .ok (r.add p.anchor ⟨p.scalarTag (.plain "") true, .scalar (.plain "")⟩)
  else .error r.unexpected

/-- Where a node stands. -/
inductive Position where
  /-- In a block. -/
  | block
  /-- In a block, as a part of a mapping: the items of a sequence may stand without
      being further in. -/
  | blockPart
  /-- In a flow collection. -/
  | flow
  deriving DecidableEq

/-- The kind of a collection, by how it is written. -/
inductive Collection where
  /-- A sequence in brackets. -/
  | flowSequence
  /-- A mapping in braces. -/
  | flowMapping
  /-- A sequence that is not further in than the mapping around it. -/
  | bareSequence
  /-- A sequence in a block. -/
  | blockSequence
  /-- A mapping in a block. -/
  | blockMapping
  /-- A mapping of one pair in a flow sequence. -/
  | onePair

/-- The collection that starts with a token. -/
def Token.collection? (position : Position) : Token → Option Collection
  | .flowSequenceStart => some .flowSequence
  | .flowMappingStart => some .flowMapping
  | .blockEntry => if position = .blockPart then some .bareSequence else none
  | .blockSequenceStart => if position = .flow then none else some .blockSequence
  | .blockMappingStart => if position = .flow then none else some .blockMapping
  | _ => none

/-- Whether a collection is a sequence. -/
def Collection.isSequence : Collection → Bool
  | flowSequence | bareSequence | blockSequence => true
  | flowMapping | blockMapping | onePair => false

/-- The tag of a collection that has none. -/
def Collection.tag (c : Collection) : Tag := if c.isSequence then .seq else .map

/-- A collection without parts. -/
def Collection.empty (c : Collection) : Content :=
  if c.isSequence then .sequence [] else .mapping []

mutual

/-- A node. `fuel` bounds the depth of the reading. -/
def readNode (handles : Handles) : (fuel : Nat) → Position → Reading →
    Except Fault (Nat × Reading)
  | 0, _, _ => .error .invalid
  | fuel + 1, position, r =>
    match r.tokens with
    | .alias name :: ts => (r.alias? name).map fun node => (node, { r with tokens := ts })
    | _ =>
      match r.properties handles with
      | .error e => .error e
      | .ok (p, r) => readContent handles fuel position p r

/-- The content of a node, after its properties. -/
def readContent (handles : Handles) : (fuel : Nat) → Position → Properties → Reading →
    Except Fault (Nat × Reading)
  | 0, _, _, _ => .error .invalid
  | fuel + 1, position, p, r =>
    match r.tokens.head?, r.checkAnchor p.anchor with
    | some (.fault f), _ => .error f
    | _, .error e => .error e
    | none, .ok _ => readNothing p r
    | some (.scalar text plain), .ok _ =>
      .ok (r.next.add p.anchor ⟨p.scalarTag text plain, .scalar text⟩)
    | some t, .ok _ =>
      match t.collection? position with
      | some c => readCollection handles fuel c p r
      | none => readNothing p r

/-- A collection, from its first token on. -/
def readCollection (handles : Handles) : (fuel : Nat) → Collection → Properties → Reading →
    Except Fault (Nat × Reading)
  | 0, _, _, _ => .error .invalid
  | fuel + 1, c, p, r =>
    match r.openCollection p c.tag c.empty with
    | .error e => .error e
    | .ok (number, r) =>
      let sequence (parts : Except Fault (List Nat × Reading)) :=
        parts.map fun (items, r) => r.closeCollection number (.sequence items)
      let mapping (parts : Except Fault (List (Nat × Nat) × Reading)) :=
        parts.map fun (pairs, r) => r.closeCollection number (.mapping pairs)
      match c with
      | .flowSequence => sequence (readFlowItems handles fuel true r.next)
      | .flowMapping => mapping (readFlowPairs handles fuel true r.next)
      | .bareSequence => sequence (readBareItems handles fuel r)
      | .blockSequence => sequence (readBlockItems handles fuel r.next)
      | .blockMapping => mapping (readBlockPairs handles fuel r.next)
      | .onePair => mapping (readOnePair handles fuel r.next)

/-- A node, or the empty scalar before a token that ends a part. -/
def readPart (handles : Handles) : (fuel : Nat) → Position → (ends : Token → Bool) → Reading →
    Except Fault (Nat × Reading)
  | 0, _, _, _ => .error .invalid
  | fuel + 1, position, ends, r =>
    if r.meets ends then .ok r.addEmpty else readNode handles fuel position r

/-- The items of a sequence in a block, up to its end. -/
def readBlockItems (handles : Handles) : (fuel : Nat) → Reading →
    Except Fault (List Nat × Reading)
  | 0, _ => .error .invalid
  | fuel + 1, r =>
    match r.tokens with
    | .blockEntry :: _ =>
      match readPart handles fuel .block Token.endsBlockItem r.next with
      | .error e => .error e
      | .ok (item, r) =>
        (readBlockItems handles fuel r).map fun (items, r) => (item :: items, r)
    | .blockEnd :: _ => .ok ([], r.next)
    | _ => .error r.unexpected

/-- The items of a sequence that is not further in than the mapping around it. -/
def readBareItems (handles : Handles) : (fuel : Nat) → Reading →
    Except Fault (List Nat × Reading)
  | 0, _ => .error .invalid
  | fuel + 1, r =>
    match r.tokens with
    | .blockEntry :: _ =>
      let ends t := Token.endsBlockItem t || Token.endsBlockPart t
      match readPart handles fuel .block ends r.next with
      | .error e => .error e
      | .ok (item, r) =>
        (readBareItems handles fuel r).map fun (items, r) => (item :: items, r)
    | _ => .ok ([], r)

/-- The pairs of a mapping in a block, up to its end. -/
def readBlockPairs (handles : Handles) : (fuel : Nat) → Reading →
    Except Fault (List (Nat × Nat) × Reading)
  | 0, _ => .error .invalid
  | fuel + 1, r =>
    match r.tokens with
    | .key :: _ =>
      match readPart handles fuel .blockPart Token.endsBlockPart r.next with
      | .error e => .error e
      | .ok (key, r) =>
        match readValuePart handles fuel .blockPart Token.endsBlockPart r with
        | .error e => .error e
        | .ok (value, r) =>
          (readBlockPairs handles fuel r).map fun (pairs, r) => ((key, value) :: pairs, r)
    | .blockEnd :: _ => .ok ([], r.next)
    | _ => .error r.unexpected

/-- The value of a pair; without a colon it is the empty scalar. -/
def readValuePart (handles : Handles) : (fuel : Nat) → Position → (ends : Token → Bool) →
    Reading → Except Fault (Nat × Reading)
  | 0, _, _, _ => .error .invalid
  | fuel + 1, position, ends, r =>
    match r.tokens with
    | .value :: _ => readPart handles fuel position ends r.next
    | _ => .ok r.addEmpty

/-- The pair of a mapping of one pair, after the start of its key. -/
def readOnePair (handles : Handles) : (fuel : Nat) → Reading →
    Except Fault (List (Nat × Nat) × Reading)
  | 0, _ => .error .invalid
  | fuel + 1, r =>
    let endsKey t := Token.isValue t || Token.endsSequencePart t
    match readPart handles fuel .flow endsKey r with
    | .error e => .error e
    | .ok (key, r) =>
      (readValuePart handles fuel .flow Token.endsSequencePart r).map fun (value, r) =>
        ([(key, value)], r)

/-- The items of a flow sequence, up to its end; a key makes an item that is a mapping
    of one pair. -/
def readFlowItems (handles : Handles) : (fuel : Nat) → (first : Bool) → Reading →
    Except Fault (List Nat × Reading)
  | 0, _, _ => .error .invalid
  | fuel + 1, first, r =>
    match r.tokens, first with
    | .flowSequenceEnd :: _, _ => .ok ([], r.next)
    | .flowEntry :: .flowSequenceEnd :: _, false => .ok ([], r.next.next)
    | .flowEntry :: _, false => readFlowItem handles fuel r.next
    | _, true => readFlowItem handles fuel r
    | _, false => .error r.unexpected

/-- An item of a flow sequence and those after it. -/
def readFlowItem (handles : Handles) : (fuel : Nat) → Reading →
    Except Fault (List Nat × Reading)
  | 0, _ => .error .invalid
  | fuel + 1, r =>
    let item : Except Fault (Nat × Reading) :=
      match r.tokens with
      | .key :: _ => readCollection handles fuel .onePair {} r
      | _ => readNode handles fuel .flow r
    match item with
    | .error e => .error e
    | .ok (item, r) =>
      (readFlowItems handles fuel false r).map fun (items, r) => (item :: items, r)

/-- The pairs of a flow mapping, up to its end. -/
def readFlowPairs (handles : Handles) : (fuel : Nat) → (first : Bool) → Reading →
    Except Fault (List (Nat × Nat) × Reading)
  | 0, _, _ => .error .invalid
  | fuel + 1, first, r =>
    match r.tokens, first with
    | .flowMappingEnd :: _, _ => .ok ([], r.next)
    | .flowEntry :: .flowMappingEnd :: _, false => .ok ([], r.next.next)
    | .flowEntry :: _, false => readFlowPair handles fuel r.next
    | _, true => readFlowPair handles fuel r
    | _, false => .error r.unexpected

/-- A pair of a flow mapping and those after it; without a colon its value is the empty
    scalar. -/
def readFlowPair (handles : Handles) : (fuel : Nat) → Reading →
    Except Fault (List (Nat × Nat) × Reading)
  | 0, _ => .error .invalid
  | fuel + 1, r =>
    let pair : Except Fault ((Nat × Nat) × Reading) :=
      match r.tokens with
      | .key :: _ =>
        let endsKey t := Token.isValue t || Token.endsMappingPart t
        match readPart handles fuel .flow endsKey r.next with
        | .error e => .error e
        | .ok (key, r) =>
          (readValuePart handles fuel .flow Token.endsMappingPart r).map fun (value, r) =>
            ((key, value), r)
      | _ =>
        (readNode handles fuel .flow r).map fun (key, r) =>
          let (value, r) := r.addEmpty
          ((key, value), r)
    match pair with
    | .error e => .error e
    | .ok (pair, r) =>
      (readFlowPairs handles fuel false r).map fun (pairs, r) => (pair :: pairs, r)

end

/-! ## Documents -/

/-- The directives before a document: whether a version was given, and the handles. -/
def readDirectives (version : Bool) (handles : Handles) :
    List Token → Except Fault (Handles × List Token)
  | .directive (.version major) :: ts =>
    if version ∨ major ≠ 1 then .error .invalid else readDirectives true handles ts
  | .directive (.handle handle text) :: ts =>
    if (handles.lookup handle).isSome then .error .invalid
    else readDirectives version ((handle, text) :: handles) ts
  | .directive .unknown :: ts => readDirectives version handles ts
  | ts => .ok (handles ++ defaultHandles, ts)

/-- Whether a token lies between documents. -/
def Token.isBetween : Token → Bool
  | .directive _ | .documentStart | .documentEnd => true
  | _ => false

/-- Whether a token ends a document. -/
def Token.isDocumentEnd : Token → Bool
  | .documentEnd => true
  | _ => false

/-- A document with an explicit start; it may be empty. -/
def readExplicit (tokens : List Token) : Except Fault (Nat × Reading) :=
  match readDirectives false [] tokens with
  | .error e => .error e
  | .ok (handles, .documentStart :: ts) =>
    let r : Reading := { tokens := ts }
    if ts.isEmpty || r.meets Token.isBetween then .ok r.addEmpty
    else readNode handles (6 * ts.length + 8) .block r
  | .ok (_, ts) => .error ({ tokens := ts } : Reading).unexpected

/-- A document. -/
def readDocument : List Token → Except Fault (Nat × Reading)
  | .directive d :: ts => readExplicit (.directive d :: ts)
  | .documentStart :: ts => readExplicit (.documentStart :: ts)
  | ts => readNode defaultHandles (6 * ts.length + 8) .block { tokens := ts }

/-- The nodes of a document, and the number of the one that is the whole of it. -/
structure Graph where
  /-- The nodes. -/
  nodes : Nodes
  /-- The number of the node that is the whole document. -/
  root : Nat

/-- The one document that the tokens are; no tokens are no document, and several documents
    are a fault. -/
def Graph.ofTokens (tokens : List Token) : Except Fault (Option Graph) :=
  if tokens.isEmpty then .ok none
  else
    match readDocument tokens with
    | .error e => .error e
    | .ok (root, r) =>
      match r.tokens.dropWhile Token.isDocumentEnd with
      | [] => .ok (some ⟨r.nodes, root⟩)
      | ts =>
        match readDirectives false [] ts with
        | .error e => .error e
        | .ok (_, ts) => .error ({ tokens := ts } : Reading).unexpected

end CategoryLint.Yaml
