import PipelineRuns.Text.Digit
import PipelineRuns.Yaml.Scalar

/-!
# Tokens of YAML

`Token.scan` cuts a YAML text into tokens. Indentation is told by tokens of its own: a collection in
block notation begins with a start token and ends with `Token.blockEnd`. A text that cannot be cut
up gives the tokens that are certain before the fault and then `Token.malformed`.

Whether something is the key of a mapping shows only at the colon after it. The scanner remembers
where a key could start (`Candidate`), one candidate for each level of flow collections, and puts
the tokens that announce the key in front of it once the colon is read. A candidate is given up when
its line ends; in a place where only a key can stand that is a fault.
-/

namespace PipelineRuns.Yaml

/-- What a directive line states. -/
inductive Directive where
  | version (major minor : Nat)
  | handle (name expansion : String)
  | other
  deriving DecidableEq, Repr

/-- The parts that a YAML text is made of. A tag consists of a handle, if it has one, and a
suffix. -/
inductive Token where
  | directive (d : Directive)
  | documentStart
  | documentEnd
  | streamEnd
  | blockSequenceStart
  | blockMappingStart
  | blockEnd
  | flowSequenceStart
  | flowSequenceEnd
  | flowMappingStart
  | flowMappingEnd
  | blockEntry
  | flowEntry
  | key
  | value
  | alias (name : String)
  | anchor (name : String)
  | tag (handle : Option String) (suffix : String)
  | scalar (text : String) (isPlain : Bool)
  | malformed (fault : Fault)
  deriving DecidableEq, Repr

/-! ### Names, tags and directives -/

namespace Word

/-- A letter or digit of ASCII, a dash or an underscore. -/
def isNameChar (c : Char) : Bool :=
  c.isAlphanum || c = '-' || c = '_'

/-- The characters of an address. -/
def isUriChar (c : Char) : Bool :=
  c.isAlphanum || "-;/?:@&=+$,_.!~*'()[]".toList.contains c

/-- A text that was read, and the place after it. -/
abbrev Read := Except Fault (String × Cursor)

/-- The name of an anchor or alias. -/
def name (c : Cursor) : Read :=
  let (word, c) := c.span isNameChar
  let ends := match c.peek with
    | none => true
    | some ch => endsWord (some ch) || "?:,]\x7d%@`".toList.contains ch
  if word.isEmpty || !ends then .error .notYaml else .ok (String.ofList word, c)

/-- The bytes of escapes, a percent sign and two digits of base 16 each. -/
def escapedBytes : Nat → Cursor → Except Fault (List UInt8 × Cursor)
  | 0, c => .ok ([], c)
  | fuel + 1, c =>
    if c.isAt '%' then
      match Scalar.hexCode? 2 c.next with
      | none => .error .notYaml
      | some n => do
        let (more, c) ← escapedBytes fuel (Cursor.advance 2 c.next)
        return (UInt8.ofNat n :: more, c)
    else .ok ([], c)

/-- The characters of an address from here on. -/
def uriRest : Nat → Cursor → Except Fault (List Char × Cursor)
  | 0, c => .ok ([], c)
  | fuel + 1, c => do
    let (word, c) := c.span isUriChar
    if c.isAt '%' then
      let (bytes, c) ← escapedBytes (c.rest.length + 1) c
      match String.fromUTF8? ⟨bytes.toArray⟩ with
      | none => .error .notYaml
      | some s =>
        let (more, c) ← uriRest fuel c
        return (word ++ s.toList ++ more, c)
    else return (word, c)

/-- An address, which may not be empty. -/
def uri (c : Cursor) : Read := do
  let (word, c) ← uriRest (c.rest.length + 1) c
  if word.isEmpty then .error .notYaml else return (String.ofList word, c)

/-- The handle of a tag: an exclamation mark, alone or before a name and a second one. -/
def handle (c : Cursor) : Read :=
  if !c.isAt '!' then .error .notYaml
  else if c.peekAt 1 = some ' ' then .ok ("!", c.next)
  else
    let (word, after) := c.next.span isNameChar
    if after.isAt '!' then .ok (String.ofList ('!' :: (word ++ ['!'])), after.next)
    else .error .notYaml

/-- Whether a second exclamation mark stands in the word that starts here. -/
def hasHandle (c : Cursor) : Bool :=
  (c.next.rest.takeWhile (fun ch => !endsName (some ch))).contains '!'

/-- The tag that starts here. -/
def tag (c : Cursor) : Except Fault (Token × Cursor) := do
  let (t, c) ←
    if c.peekAt 1 = some '<' then do
      let (suffix, c) ← uri (Cursor.advance 2 c)
      if c.isAt '>' then pure (Token.tag none suffix, c.next) else .error .notYaml
    else if endsWord (c.peekAt 1) then pure (Token.tag none "!", c.next)
    else do
      let (h, c) ← if hasHandle c then handle c else pure ("!", c.next)
      let (suffix, c) ← uri c
      pure (Token.tag (some h) suffix, c)
  if endsName c.peek then return (t, c) else .error .notYaml

/-- A number of a version. -/
def number (c : Cursor) : Except Fault (Nat × Cursor) :=
  let (ds, c) := c.span Char.isDigit
  match Text.asciiNat? ds with
  | some n => if Text.maxDigits < ds.length then .error .badNumber else .ok (n, c)
  | none => .error .notYaml

/-- What stands after the name of a directive. -/
def directiveValue (name : String) (c : Cursor) : Except Fault (Directive × Cursor) :=
  if name = "YAML" then do
    let (major, c) ← number c.skipSpaces
    if !c.isAt '.' then .error .notYaml
    else
      let (minor, c) ← number c.next
      if endsName c.peek then return (.version major minor, c) else .error .notYaml
  else if name = "TAG" then do
    let (h, c) ← handle c.skipSpaces
    if !c.isAt ' ' then .error .notYaml
    else
      let (expansion, c) ← uri c.skipSpaces
      if endsName c.peek then return (.handle h expansion, c) else .error .notYaml
  else .ok (.other, c.skip (fun ch => !isBreak ch))

/-- The directive whose percent sign stands here. -/
def directive (c : Cursor) : Except Fault (Token × Cursor) := do
  let (word, c) := c.next.span isNameChar
  if word.isEmpty || !endsName c.peek then .error .notYaml
  else
    let (d, c) ← directiveValue (String.ofList word) c
    let c ← c.restOfLine
    return (.directive d, c)

end Word

/-! ### The scanner -/

/-- A place where a key could start: how many tokens were read before it, where it stands, and
whether nothing else than a key can stand there. -/
structure Candidate where
  position : Nat
  index : Nat
  line : Nat
  column : Nat
  required : Bool
  deriving Repr

/-- What the scanner keeps while it reads: the tokens, the last one first, and their number; the
columns of the block collections around the place; the candidates, of the innermost flow level and
of those around it; and whether a key could start at the next token. -/
structure Scanner where
  place : Cursor
  tokens : List Token := []
  count : Nat := 0
  indent : Int := -1
  indents : List Int := []
  candidate : Option Candidate := none
  outer : List (Option Candidate) := []
  allowKey : Bool := true
  deriving Repr

namespace Scanner

/-- A step of the scanner. -/
abbrev Step := Except Fault Scanner

/-- Whether the place lies inside a flow collection. -/
def inFlow (s : Scanner) : Bool := !s.outer.isEmpty

/-- Adds a token. -/
def emit (t : Token) (s : Scanner) : Scanner :=
  { s with tokens := t :: s.tokens, count := s.count + 1 }

/-- Adds a token in front of the one that has `position` tokens before it. -/
def insertAt (position : Nat) (t : Token) (s : Scanner) : Scanner :=
  let later := s.count - position
  { s with tokens := s.tokens.take later ++ t :: s.tokens.drop later, count := s.count + 1 }

/-- Moves to a place. -/
def moveTo (c : Cursor) (s : Scanner) : Scanner := { s with place := c }

/-- Allows or forbids a key at the next token. -/
def keyAllowed (b : Bool) (s : Scanner) : Scanner := { s with allowKey := b }

/-- The longest distance between the start of a key and its colon. -/
def longestKey : Nat := 1024

/-- Whether a candidate lies on an earlier line or too far back. -/
def isStale (s : Scanner) (k : Candidate) : Bool :=
  k.line ≠ s.place.line || longestKey < s.place.index - k.index

/-- A candidate that is kept; a fault when one that had to be a key is given up. -/
def kept (s : Scanner) : Option Candidate → Except Fault (Option Candidate)
  | none => .ok none
  | some k =>
    if s.isStale k then (if k.required then .error .notYaml else .ok none) else .ok (some k)

/-- Gives up the candidates whose line has ended. -/
def dropStale (s : Scanner) : Step := do
  let candidate ← s.kept s.candidate
  let outer ← s.outer.mapM s.kept
  return { s with candidate := candidate, outer := outer }

/-- Gives up the candidate of the innermost level. -/
def dropCandidate (s : Scanner) : Step :=
  match s.candidate with
  | some k => if k.required then .error .notYaml else .ok { s with candidate := none }
  | none => .ok s

/-- Makes the place a candidate, where a key may stand. -/
def saveCandidate (s : Scanner) : Step :=
  if s.allowKey then do
    -- In the column of the innermost block collection nothing but a key can go on with it.
    let required := !s.inFlow && s.indent = (s.place.column : Int)
    let s ← s.dropCandidate
    return { s with
      candidate := some ⟨s.count, s.place.index, s.place.line, s.place.column, required⟩ }
  else .ok s

/-- Ends the block collections that are indented deeper than `column`. -/
def closeBlocks (column : Int) (s : Scanner) : List Int → Scanner
  | [] => s
  | outer :: rest =>
    -- The collections are left from the inside out, each with a token of its own.
    if column < s.indent then
      closeBlocks column (emit .blockEnd { s with indent := outer, indents := rest }) rest
    else s

/-- Ends the block collections that are indented deeper than `column`, outside flow collections. -/
def unwind (column : Int) (s : Scanner) : Scanner :=
  if s.inFlow then s else closeBlocks column s s.indents

/-- Whether `column` lies deeper than the innermost block collection. -/
def isDeeper (s : Scanner) (column : Nat) : Bool := s.indent < (column : Int)

/-- Enters a block collection at `column`. -/
def enter (column : Nat) (s : Scanner) : Scanner :=
  { s with indent := column, indents := s.indent :: s.indents }

/-- The place of the next token; a line break on the way allows a key outside flow collections. -/
def toNextToken (inFlow : Bool) : Nat → Bool → Cursor → Bool × Cursor
  | 0, allow, c => (allow, c)
  | fuel + 1, allow, c =>
    let c := c.skipSpaces.skipComment
    let (br, after) := c.lineBreak
    -- Inside flow collections a line break does not make room for a key.
    if br.isEmpty then (allow, c) else toNextToken inFlow fuel (allow || !inFlow) after

/-- A token that no key can be, of the given length. -/
def mark (t : Token) (length : Nat) (s : Scanner) : Scanner :=
  (s.emit t).moveTo (Cursor.advance length s.place)

/-- The end of the text. -/
def endStream (s : Scanner) : Step := do
  let s ← (s.unwind (-1)).dropCandidate
  return s.emit .streamEnd

/-- A directive. -/
def directive (s : Scanner) : Step := do
  let s ← (s.unwind (-1)).dropCandidate
  let (t, c) ← Word.directive s.place
  return ((s.emit t).moveTo c).keyAllowed false

/-- A line that separates documents. -/
def separator (t : Token) (s : Scanner) : Step := do
  let s ← (s.unwind (-1)).dropCandidate
  return (s.mark t 3).keyAllowed false

/-- The start of a flow collection. -/
def openFlow (t : Token) (s : Scanner) : Step := do
  let s ← s.saveCandidate
  -- The candidate of this level waits until the collection ends: the collection itself can be a
  -- key.
  let s := { s with outer := s.candidate :: s.outer, candidate := none }
  return (s.mark t 1).keyAllowed true

/-- The end of a flow collection. -/
def closeFlow (t : Token) (s : Scanner) : Step := do
  let s ← s.dropCandidate
  let s := match s.outer with
    | [] => s
    | k :: rest => { s with candidate := k, outer := rest }
  return (s.mark t 1).keyAllowed false

/-- The comma of a flow collection. -/
def flowEntry (s : Scanner) : Step := do
  let s ← s.dropCandidate
  return (s.mark .flowEntry 1).keyAllowed true

/-- Enters a block collection here, outside flow collections, if it lies deeper than the innermost
one. -/
def enterHere (t : Token) (s : Scanner) : Step :=
  if s.inFlow then .ok s
  else if !s.allowKey then .error .notYaml
  else if s.isDeeper s.place.column then .ok (emit t (s.enter s.place.column)) else .ok s

/-- The dash before an item. -/
def blockEntry (s : Scanner) : Step := do
  let s ← (← s.enterHere .blockSequenceStart).dropCandidate
  return (s.mark .blockEntry 1).keyAllowed true

/-- The question mark before a key. -/
def key (s : Scanner) : Step := do
  let s ← (← s.enterHere .blockMappingStart).dropCandidate
  return (s.mark .key 1).keyAllowed (!s.inFlow)

/-- The colon between a key and its value. -/
def value (s : Scanner) : Step :=
  match s.candidate with
  | some k =>
    -- Only the colon tells that the candidate was a key, so its token is put in before what was
    -- read since, and so is the start of the mapping if this is its first key.
    let s := insertAt k.position .key { s with candidate := none }
    let s :=
      if !s.inFlow && s.isDeeper k.column
        then insertAt k.position .blockMappingStart (s.enter k.column)
      else s
    .ok ((s.mark .value 1).keyAllowed false)
  | none => do
    -- No key was seen, so it is the empty one.
    let s ← s.enterHere .blockMappingStart
    return (s.mark .value 1).keyAllowed (!s.inFlow)

/-- An alias or anchor. -/
def reference (t : String → Token) (s : Scanner) : Step := do
  let s ← s.saveCandidate
  let (name, c) ← Word.name s.place.next
  return ((s.emit (t name)).moveTo c).keyAllowed false

/-- A tag. -/
def tag (s : Scanner) : Step := do
  let s ← s.saveCandidate
  let (t, c) ← Word.tag s.place
  return ((s.emit t).moveTo c).keyAllowed false

/-- A scalar in block notation. -/
def blockScalar (s : Scanner) : Step := do
  let s ← s.dropCandidate
  let (text, c) ← Scalar.block s.indent s.place
  return ((s.emit (.scalar (String.ofList text) false)).moveTo c).keyAllowed true

/-- A scalar between quotes. -/
def quotedScalar (quote : Char) (s : Scanner) : Step := do
  let s ← s.saveCandidate
  let (text, c) ← Scalar.quoted quote s.place
  return ((s.emit (.scalar (String.ofList text) false)).moveTo c).keyAllowed false

/-- A plain scalar. -/
def plainScalar (s : Scanner) : Step := do
  let s ← s.saveCandidate
  let r := Scalar.plain s.inFlow s.indent s.place
  return ((s.emit (.scalar (String.ofList r.text) true)).moveTo r.place).keyAllowed r.sawBreak

/-- Whether a plain scalar can start with `ch`. -/
def startsPlain (s : Scanner) (ch : Char) : Bool :=
  if "-?:,[]\x7b\x7d#&*!|>'\"%@`".toList.contains ch || endsWord (some ch) then
    !endsWord (s.place.peekAt 1) && (ch = '-' || (!s.inFlow && (ch = '?' || ch = ':')))
  else true

/-- The token that starts with `ch`. -/
def token (ch : Char) (s : Scanner) : Step :=
  let spaced := endsWord (s.place.peekAt 1)
  -- The order matters: the lines that separate documents come before the dash and the plain scalar.
  if ch = '%' && s.place.column = 0 then s.directive
  else if s.place.column = 0 && s.place.atMark '-' then s.separator .documentStart
  else if s.place.column = 0 && s.place.atMark '.' then s.separator .documentEnd
  else if ch = '[' then s.openFlow .flowSequenceStart
  else if ch = '\x7b' then s.openFlow .flowMappingStart
  else if ch = ']' then s.closeFlow .flowSequenceEnd
  else if ch = '\x7d' then s.closeFlow .flowMappingEnd
  else if ch = ',' then s.flowEntry
  else if ch = '-' && spaced then s.blockEntry
  else if ch = '?' && (s.inFlow || spaced) then s.key
  else if ch = ':' && (s.inFlow || spaced) then s.value
  else if ch = '*' then s.reference .alias
  else if ch = '&' then s.reference .anchor
  else if ch = '!' then s.tag
  else if ch = '|' && !s.inFlow then s.blockScalar
  else if ch = '>' && !s.inFlow then s.blockScalar
  else if ch = '\'' then s.quotedScalar '\''
  else if ch = '"' then s.quotedScalar '"'
  else if s.startsPlain ch then s.plainScalar
  else .error .notYaml

/-- The next token, with the tokens that end block collections before it. -/
def step (s : Scanner) : Step := do
  let (allow, c) := toNextToken s.inFlow (s.place.rest.length + 1) s.allowKey s.place
  let s ← ((s.moveTo c).keyAllowed allow).dropStale
  let s := s.unwind (s.place.column : Int)
  -- What is indented less than the blocks around it ends them, before it is looked at.
  match s.place.peek with
  | none => s.endStream
  | some ch => s.token ch

/-- The tokens that are certain, the last one first: those before the first one that can still turn
out to be the start of a key. -/
def certain (s : Scanner) : List Token :=
  let pending := (s.candidate :: s.outer).filterMap (fun k? => k?.filter (fun k => !s.isStale k))
  match (pending.map Candidate.position).min? with
  | none => s.tokens
  | some position => s.tokens.drop (s.count - position)

/-- Steps to the end of the text: the tokens, the last one first. Before a fault stand the tokens
that are certain, since no other token is handed over before the fault is met. -/
def run : Nat → Scanner → List Token
  | 0, s => .malformed .notYaml :: s.tokens
  | fuel + 1, s =>
    match s.step with
    | .error f => .malformed f :: s.certain
    | .ok s' => if s'.tokens.head? = some .streamEnd then s'.tokens else run fuel s'

end Scanner

/-- The tokens of a text. A byte order mark at its start is skipped. -/
def Token.scan (text : List Char) : List Token :=
  let start : Cursor := ⟨text, 0, 0, 0⟩
  let start := if start.isAt '\ufeff' then start.next else start
  (Scanner.run (text.length + 2) { place := start }).reverse

end PipelineRuns.Yaml
