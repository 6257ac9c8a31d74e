import PipelineRuns.Yaml.Tag
import PipelineRuns.Yaml.Token

/-!
# Nodes of YAML

A `Node` is a scalar, a sequence or a mapping with a tag: what is left of a text when notation,
anchors and aliases are resolved. `Reader` holds the tokens not yet read and the anchors of the
document, and `Reader.document?` reads the next document.

The grammar is one function for each collection, and all of them read nodes by `Reader.node`. Every
call reads a token before it calls another one at the same level, so the number of tokens bounds the
depth and length of the calls and serves as fuel. What is missing (a key, a value, an item) is an
empty plain scalar.
-/

namespace PipelineRuns.Yaml

/-- A value of a document, before it is given its meaning. An alias is a copy of the node that it
names. -/
inductive Node where
  | scalar (tag : Tag) (text : String)
  | sequence (tag : Tag) (items : List Node)
  | mapping (tag : Tag) (entries : List (Node × Node))
  /-- An alias inside the collection that it names. -/
  | loop
  deriving Inhabited

/-- The scalar that stands for something left out. -/
def Node.empty : Node := .scalar .null ""

/-- What is left to read of a stream: the tokens, the anchors of the document so far, and the
handles that its directives declare. -/
structure Reader where
  tokens : List Token
  anchors : List (String × Node) := []
  handles : List (String × String) := []

namespace Reader

/-- The next token. -/
def peek (r : Reader) : Token := r.tokens.headD .streamEnd

/-- The reader after the next token. -/
def next (r : Reader) : Reader := { r with tokens := r.tokens.tail }

/-- Whether the next token is one of these. -/
def isAt (r : Reader) (ts : List Token) : Bool := ts.contains r.peek

/-- The fault of a text in which the next token has no place; a fault of the token itself comes
first. -/
def unexpected {α : Type} (r : Reader) : Except Fault α :=
  match r.peek with
  | .malformed f => .error f
  | _ => .error .notYaml

/-- Remembers the node of an anchor. -/
def define (anchor : Option String) (n : Node) (r : Reader) : Reader :=
  match anchor with
  | none => r
  | some a => { r with anchors := (a, n) :: r.anchors }

/-- The handles that every document knows. -/
def commonHandles : List (String × String) :=
  [("!", "!"), ("!!", Tag.common)]

/-- The full name of a tag. -/
def tagName (r : Reader) (handle : Option String) (suffix : String) : Except Fault String :=
  match handle with
  | none => .ok suffix
  | some h =>
    match (r.handles ++ commonHandles).lookup h with
    | some expansion => .ok (expansion ++ suffix)
    | none => .error .notYaml

/-- The anchor and the tag before a node, in either order. The handle of a tag is looked up after
both. -/
def properties (r : Reader) : Except Fault ((Option String × Option String) × Reader) :=
  match r.peek with
  | .anchor a =>
    match r.next.peek with
    | .tag handle suffix => do return ((some a, some (← r.tagName handle suffix)), r.next.next)
    | _ => .ok ((some a, none), r.next)
  | .tag handle suffix =>
    match r.next.peek with
    | .anchor a => do return ((some a, some (← r.tagName handle suffix)), r.next.next)
    | .malformed f => .error f
    | _ => do return ((none, some (← r.tagName handle suffix)), r.next)
  | _ => .ok ((none, none), r)

/-- Whether a document has this anchor already; it defines each of them once. -/
def isDefined (r : Reader) (anchor : Option String) : Bool :=
  match anchor with
  | none => false
  | some a => (r.anchors.lookup a).isSome

/-- The tag of a collection: the one given, or that of its notation. -/
def collectionTag (own : Tag) (name : Option String) : Tag :=
  match name with
  | none => own
  | some n => if n = "!" then own else Tag.ofName n

/-- The tag of a scalar: the one given, or what a plain scalar is by its text. The mark alone asks
for that of any scalar. -/
def scalarTag (name : Option String) (isPlain : Bool) (text : String) : Tag :=
  match name with
  | none => if isPlain then Tag.ofPlain text else .text
  | some n => if n = "!" then Tag.ofPlain text else Tag.ofName n

/-- The reader after the comma that stands before every item of a flow collection but the first. -/
def comma (r : Reader) (first : Bool) : Except Fault Reader :=
  if first then .ok r else if r.peek = .flowEntry then .ok r.next else r.unexpected

mutual

/-- The node that starts here. `block` allows collections in block notation, and `dashes` a sequence
whose dashes stand in the column of the key before them. -/
def node : Nat → Bool → Bool → Reader → Except Fault (Node × Reader)
  | 0, _, _, r => r.unexpected
  | fuel + 1, block, dashes, r =>
    match r.peek with
    | .alias name =>
      match r.anchors.lookup name with
      | some n => .ok (n, r.next)
      | none => .error .notYaml
    | _ => do
      let ((anchor, tag), r) ← r.properties
      if r.isDefined anchor then r.unexpected
      else
        match r.peek with
        | .scalar text isPlain =>
          let n := Node.scalar (scalarTag tag isPlain text) text
          return (n, r.next.define anchor n)
        -- The node is open while its members are read: an alias among them names it before it is
        -- there.
        | .flowSequenceStart =>
          let (items, r) ← flowItems fuel true (r.next.define anchor .loop)
          let n := Node.sequence (collectionTag .list tag) items
          return (n, r.define anchor n)
        | .flowMappingStart =>
          let (entries, r) ← flowEntries fuel true (r.next.define anchor .loop)
          let n := Node.mapping (collectionTag .mapping tag) entries
          return (n, r.define anchor n)
        | token =>
          -- No token tells the start of a sequence in the column of its key, nor its end.
          if dashes && token = .blockEntry then
            let (items, r) ← dashItems fuel (r.define anchor .loop)
            let n := Node.sequence (collectionTag .list tag) items
            return (n, r.define anchor n)
          else if block && token = .blockSequenceStart then
            let (items, r) ← blockItems fuel (r.next.define anchor .loop)
            let n := Node.sequence (collectionTag .list tag) items
            return (n, r.define anchor n)
          else if block && token = .blockMappingStart then
            let (entries, r) ← blockEntries fuel (r.next.define anchor .loop)
            let n := Node.mapping (collectionTag .mapping tag) entries
            return (n, r.define anchor n)
          -- Properties without a node stand before the empty scalar.
          else if anchor.isSome || tag.isSome then
            let n := Node.scalar (scalarTag tag true "") ""
            return (n, r.define anchor n)
          else r.unexpected

/-- The node that starts here, or the empty one where one of these tokens stands. -/
def nodeUnless : Nat → List Token → Bool → Bool → Reader → Except Fault (Node × Reader)
  | 0, _, _, _, r => r.unexpected
  | fuel + 1, ts, block, dashes, r =>
    if r.isAt ts then .ok (.empty, r) else node fuel block dashes r

/-- The items of a sequence in block notation, up to the end of the block. -/
def blockItems : Nat → Reader → Except Fault (List Node × Reader)
  | 0, r => r.unexpected
  | fuel + 1, r =>
    match r.peek with
    | .blockEntry => do
      let (n, r) ← nodeUnless fuel [.blockEntry, .blockEnd] true false r.next
      let (more, r) ← blockItems fuel r
      return (n :: more, r)
    | .blockEnd => .ok ([], r.next)
    | _ => r.unexpected

/-- The items of a sequence whose dashes stand in the column of a key. -/
def dashItems : Nat → Reader → Except Fault (List Node × Reader)
  | 0, r => r.unexpected
  | fuel + 1, r =>
    match r.peek with
    | .blockEntry => do
      let (n, r) ← nodeUnless fuel [.blockEntry, .key, .value, .blockEnd] true false r.next
      let (more, r) ← dashItems fuel r
      return (n :: more, r)
    | _ => .ok ([], r)

/-- The entries of a mapping in block notation, up to the end of the block. -/
def blockEntries : Nat → Reader → Except Fault (List (Node × Node) × Reader)
  | 0, r => r.unexpected
  | fuel + 1, r =>
    match r.peek with
    | .key => do
      let (k, r) ← nodeUnless fuel [.key, .value, .blockEnd] true true r.next
      let (v, r) ← blockValue fuel r
      let (more, r) ← blockEntries fuel r
      return ((k, v) :: more, r)
    | .blockEnd => .ok ([], r.next)
    | _ => r.unexpected

/-- The value after a key in block notation. -/
def blockValue : Nat → Reader → Except Fault (Node × Reader)
  | 0, r => r.unexpected
  | fuel + 1, r =>
    match r.peek with
    | .value => nodeUnless fuel [.key, .value, .blockEnd] true true r.next
    | _ => .ok (.empty, r)

/-- The items of a sequence in brackets, up to the closing one. An item can be a mapping of one
entry. -/
def flowItems : Nat → Bool → Reader → Except Fault (List Node × Reader)
  | 0, _, r => r.unexpected
  | fuel + 1, first, r =>
    match r.peek with
    | .flowSequenceEnd => .ok ([], r.next)
    | _ => do
      let r ← r.comma first
      match r.peek with
      | .key =>
        let (k, r) ← nodeUnless fuel [.value, .flowEntry, .flowSequenceEnd] false false r.next
        let (v, r) ← flowValue fuel .flowSequenceEnd r
        let (more, r) ← flowItems fuel false r
        return (.mapping .mapping [(k, v)] :: more, r)
      | .flowSequenceEnd => return ([], r.next)
      | _ =>
        let (n, r) ← node fuel false false r
        let (more, r) ← flowItems fuel false r
        return (n :: more, r)

/-- The value after a key in a flow collection that ends with `close`. -/
def flowValue : Nat → Token → Reader → Except Fault (Node × Reader)
  | 0, _, r => r.unexpected
  | fuel + 1, close, r =>
    match r.peek with
    | .value => nodeUnless fuel [.flowEntry, close] false false r.next
    | _ => .ok (.empty, r)

/-- The entries of a mapping in braces, up to the closing one. -/
def flowEntries : Nat → Bool → Reader → Except Fault (List (Node × Node) × Reader)
  | 0, _, r => r.unexpected
  | fuel + 1, first, r =>
    match r.peek with
    | .flowMappingEnd => .ok ([], r.next)
    | _ => do
      let r ← r.comma first
      match r.peek with
      | .key =>
        let (k, r) ← nodeUnless fuel [.value, .flowEntry, .flowMappingEnd] false false r.next
        let (v, r) ← flowValue fuel .flowMappingEnd r
        let (more, r) ← flowEntries fuel false r
        return ((k, v) :: more, r)
      | .flowMappingEnd => return ([], r.next)
      | _ =>
        let (k, r) ← node fuel false false r
        let (more, r) ← flowEntries fuel false r
        return ((k, .empty) :: more, r)

end

/-! ### Documents -/

/-- Reads the directives before a document: at most one version, and each handle once. -/
def directives : Nat → Bool → Reader → Except Fault Reader
  | 0, _, r => r.unexpected
  | fuel + 1, versioned, r =>
    match r.peek with
    | .directive (.version major _) =>
      if versioned || major ≠ 1 then .error .notYaml else directives fuel true r.next
    | .directive (.handle name expansion) =>
      if (r.handles.lookup name).isSome then .error .notYaml
      else directives fuel versioned { r.next with handles := (name, expansion) :: r.handles }
    | .directive .other => directives fuel versioned r.next
    | _ => .ok r

/-- Whether the next token starts something other than the content of a document. -/
def isBetweenDocuments (r : Reader) : Bool :=
  match r.peek with
  | .directive _ | .documentStart | .documentEnd | .streamEnd => true
  | _ => false

/-- The reader after the lines that end documents. -/
def skipEnds (r : Reader) : Reader :=
  { r with tokens := r.tokens.dropWhile (· = .documentEnd) }

/-- The reader after a document, of which one end line is read. -/
def finish (r : Reader) : Except Fault Reader :=
  match r.peek with
  | .malformed f => .error f
  | .documentEnd => .ok r.next
  | _ => .ok r

/-- How the next document of a stream begins. -/
inductive Start where
  /-- There is none. -/
  | none
  /-- It begins without a line that announces it. -/
  | bare
  | announced
  deriving DecidableEq, Repr

/-- How the next document of a stream begins, and the reader at its content. Only the first one may
be bare. -/
def start (first : Bool) (r : Reader) : Except Fault (Start × Reader) := do
  let r := { r with anchors := [], handles := [] }
  let bare := first &&
    (match r.peek with
      | .directive _ | .documentStart | .streamEnd => false
      | _ => true)
  if bare then return (.bare, r)
  else
    -- Anchors and handles are those of one document, so the reader has forgotten them here.
    let r := r.skipEnds
    if r.peek = .streamEnd then return (.none, r)
    else
      let r ← directives (r.tokens.length + 1) false r
      if r.peek ≠ .documentStart then r.unexpected else return (.announced, r.next)

/-- The content of a document. What is announced can be left out. -/
def content (announced : Bool) (r : Reader) : Except Fault (Node × Reader) := do
  let (n, r) ← if announced && r.isBetweenDocuments then pure (.empty, r)
    else node (4 * r.tokens.length + 4) true false r
  return (n, ← r.finish)

/-- The next document of a stream, if there is one. -/
def document? (first : Bool) (r : Reader) : Except Fault (Option Node × Reader) := do
  let (s, r) ← r.start first
  if s = .none then return (none, r)
  else
    let (n, r) ← r.content (s = .announced)
    return (some n, r)

end Reader

end PipelineRuns.Yaml
