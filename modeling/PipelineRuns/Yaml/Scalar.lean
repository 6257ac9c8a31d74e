import PipelineRuns.Text.Digit
import PipelineRuns.Yaml.Cursor

/-!
# Reading scalars

The three notations of a scalar in a YAML text: quoted, on lines of its own under a block header,
and plain. In all of them a line break inside the scalar is folded: one break is read as a space,
and of several breaks the first is dropped. Each reader gets the place where the scalar starts and
gives its text and the place after it.

* `Scalar.quoted` reads a scalar between quotes; `Scalar.escape` reads one escape of the double
  notation;
* `Scalar.block` reads a literal or folded block, indented deeper than what holds it;
* `Scalar.plain` reads a scalar without any mark, up to what cannot be part of it.

The number of steps of a loop is bounded by the length of the rest of the text, which serves as
fuel.
-/

namespace PipelineRuns.Yaml.Scalar

/-- A text that was read, and the place after it. -/
abbrev Read := Except Fault (List Char × Cursor)

/-! ### Quoted scalars -/

/-- The character that a letter after a backslash stands for. -/
def escapes : List (Char × Char) :=
  [('0', '\x00'), ('a', '\x07'), ('b', '\x08'), ('t', '\t'), ('\t', '\t'), ('n', '\n'),
    ('v', '\x0b'), ('f', '\x0c'), ('r', '\r'), ('e', '\x1b'), (' ', ' '), ('"', '"'), ('\\', '\\'),
    ('/', '/'), ('N', '\u0085'), ('_', '\u00a0'), ('L', '\u2028'), ('P', '\u2029')]

/-- The number of digits of base 16 that follow a letter after a backslash. -/
def codeLengths : List (Char × Nat) :=
  [('x', 2), ('u', 4), ('U', 8)]

/-- The value of a digit of base 16. -/
def hexValue? (c : Char) : Option Nat :=
  if c.isDigit then some (c.toNat - '0'.toNat)
  else if 'a' ≤ c && c ≤ 'f' then some (c.toNat - 'a'.toNat + 10)
  else if 'A' ≤ c && c ≤ 'F' then some (c.toNat - 'A'.toNat + 10)
  else none

/-- The number written by the next `n` digits of base 16. -/
def hexCode? (n : Nat) (c : Cursor) : Option Nat :=
  let ds := c.rest.take n
  if ds.length = n then (ds.mapM hexValue?).map (Text.ofDigits 16 0) else none

/-- The blank lines between two lines of a quoted scalar: their breaks, and the place of the next
text. -/
def quotedBreaks : Nat → Cursor → Read
  | 0, c => .ok ([], c)
  | fuel + 1, c =>
    if c.atSeparator then .error .notYaml
    else
      let c := c.skip (fun ch => ch = ' ' || ch = '\t')
      let (br, after) := c.lineBreak
      if br.isEmpty then .ok ([], c)
      else do
        let (more, c) ← quotedBreaks fuel after
        return (br ++ more, c)

/-- What the first break of a folded place and the further ones are read as. -/
def folded (first further : List Char) : List Char :=
  if first ≠ ['\n'] then first ++ further
  else if further.isEmpty then [' '] else further

/-- The blanks and breaks at a place in a quoted scalar, folded. -/
def quotedSpaces (c : Cursor) : Read := do
  let (blanks, c) := c.span (fun ch => ch = ' ' || ch = '\t')
  match c.peek with
  | none => .error .notYaml
  | some _ =>
    let (br, after) := c.lineBreak
    if br.isEmpty then return (blanks, c)
    else
      let (more, c) ← quotedBreaks (after.rest.length + 1) after
      return (folded br more, c)

/-- The escape whose backslash was just read. The code of a surrogate alone is left out. -/
def escape (c : Cursor) : Read :=
  match c.peek with
  | none => .error .notYaml
  | some ch =>
    match escapes.lookup ch, codeLengths.lookup ch with
    | some e, _ => .ok ([e], c.next)
    | none, some n =>
      match hexCode? n c.next with
      | none => .error .notYaml
      | some code =>
        if 0x7fffffff < code then .error .outOfRange
        else if 0x10ffff < code then .error .badNumber
        else if !code.isValidChar then .error .leftOut
        else .ok ([Char.ofNat code], Cursor.advance n c.next)
    | none, none =>
      let (br, after) := c.lineBreak
      if br.isEmpty then .error .notYaml else quotedBreaks (after.rest.length + 1) after

/-- Whether a character of a quoted scalar has no meaning of its own. -/
def isOrdinary (c : Char) : Bool :=
  !(c = '\'' || c = '"' || c = '\\' || c = ' ' || c = '\t' || isBreak c)

/-- The text up to a blank, a break or the closing quote. -/
def quotedWord (quote : Char) : Nat → Cursor → Read
  | 0, c => .ok ([], c)
  | fuel + 1, c => do
    let (word, c) := c.span isOrdinary
    -- The other quote stands for itself, and so does a backslash between single quotes.
    let step ← match c.peek, c.peekAt 1 with
      | some '\'', second =>
        if quote = '\'' then
          if second = some '\'' then pure (some (['\''], Cursor.advance 2 c)) else pure none
        else pure (some (['\''], c.next))
      | some '"', _ => if quote = '"' then pure none else pure (some (['"'], c.next))
      | some '\\', _ => if quote = '"' then some <$> escape c.next else pure (some (['\\'], c.next))
      | _, _ => pure none
    match step with
    | none => return (word, c)
    | some (piece, c) =>
      let (more, c) ← quotedWord quote fuel c
      return (word ++ piece ++ more, c)

/-- The text up to the closing quote. -/
def quotedRest (quote : Char) : Nat → Cursor → Read
  | 0, _ => .error .notYaml
  | fuel + 1, c => do
    let (word, c) ← quotedWord quote (c.rest.length + 1) c
    if c.peek = some quote then return (word, c.next)
    else
      let (blanks, c) ← quotedSpaces c
      let (more, c) ← quotedRest quote fuel c
      return (word ++ blanks ++ more, c)

/-- The scalar between quotes that starts here. -/
def quoted (quote : Char) (c : Cursor) : Read :=
  quotedRest quote (c.rest.length + 1) c.next

/-! ### Block scalars -/

/-- What happens to the breaks at the end of a block. -/
inductive Chomping where
  | strip
  | clip
  | keep
  deriving DecidableEq, Repr

/-- A sign for chomping, if one stands here. -/
def chomping? (c : Cursor) : Option Chomping :=
  if c.isAt '+' then some .keep else if c.isAt '-' then some .strip else none

/-- The digit that stands here, if one does. -/
def indentDigit? (c : Cursor) : Option Nat :=
  c.peek.bind Text.asciiDigit?

/-- The signs after the mark of a block, in either order. -/
def blockHeader (c : Cursor) : Except Fault (Chomping × Option Nat × Cursor) := do
  let (chomp, increment, c) :=
    match chomping? c with
    | some ch =>
      match indentDigit? c.next with
      | some n => (ch, some n, c.next.next)
      | none => (ch, none, c.next)
    | none =>
      match indentDigit? c with
      | some n =>
        match chomping? c.next with
        | some ch => (ch, some n, c.next.next)
        | none => (.clip, some n, c.next)
      | none => (.clip, none, c)
  -- An indentation of zero cannot be asked for.
  if increment = some 0 then .error .notYaml
  else if endsName c.peek then return (chomp, increment, c) else .error .notYaml

/-- The breaks before the first line of a block, its deepest indentation, and the place after
them. -/
def leadingBreaks : Nat → Nat → Cursor → List Char × Nat × Cursor
  | 0, deepest, c => ([], deepest, c)
  | fuel + 1, deepest, c =>
    if c.isAt ' ' then leadingBreaks fuel (max deepest c.next.column) c.next
    else
      let (br, after) := c.lineBreak
      if br.isEmpty then ([], deepest, c)
      else
        let (more, deepest, c) := leadingBreaks fuel deepest after
        (br ++ more, deepest, c)

/-- The place after the spaces that indent a line, up to column `indent`. -/
def skipIndent : Nat → Nat → Cursor → Cursor
  | 0, _, c => c
  | fuel + 1, indent, c =>
    if c.column < indent && c.isAt ' ' then skipIndent fuel indent c.next else c

/-- The breaks between two lines of a block, and the place of the next line. -/
def blockBreaks : Nat → Nat → Cursor → List Char × Cursor
  | 0, _, c => ([], c)
  | fuel + 1, indent, c =>
    let c := skipIndent indent indent c
    let (br, after) := c.lineBreak
    if br.isEmpty then ([], c)
    else
      let (more, c) := blockBreaks fuel indent after
      (br ++ more, c)

/-- A blank at a place. -/
def atBlank (c : Cursor) : Bool :=
  c.isAt ' ' || c.isAt '\t'

/-- The lines of a block from the place of one, the breaks before it, its last break and the breaks
after it. -/
def blockLines (fold : Bool) (indent : Nat) :
    Nat → List Char → Cursor → List Char × List Char × List Char × Cursor
  | 0, breaks, c => ([], [], breaks, c)
  | fuel + 1, breaks, c =>
    if c.column = indent && c.peek.isSome then
      let starts := !atBlank c
      let (line, c) := c.span (fun ch => !isBreak ch)
      let (br, c) := c.lineBreak
      let (further, c) := blockBreaks (c.rest.length + 1) indent c
      let goesOn := c.column = indent && c.peek.isSome
      -- Two lines are folded into one if both start with a word; lines that start with a blank are
      -- kept.
      let joint :=
        if !goesOn then []
        else if fold && br = ['\n'] && starts && !atBlank c then
          (if further.isEmpty then [' '] else [])
        else br
      if goesOn then
        let (more, last, rest, c) := blockLines fold indent fuel further c
        (breaks ++ line ++ joint ++ more, last, rest, c)
      else (breaks ++ line, br, further, c)
    else ([], [], breaks, c)

/-- The block scalar whose mark stands here, inside something indented by `outer`. -/
def block (outer : Int) (c : Cursor) : Read := do
  let fold := c.isAt '>'
  let (chomp, increment, c) ← blockHeader c.next
  let c ← c.restOfLine
  let least := (max (outer + 1) 1).toNat
  -- Without a digit the first line that is not empty sets the indentation.
  let (indent, breaks, c) :=
    match increment with
    | none =>
      let (breaks, deepest, c) := leadingBreaks (c.rest.length + 1) 0 c
      (max least deepest, breaks, c)
    | some n =>
      let indent := least + n - 1
      let (breaks, c) := blockBreaks (c.rest.length + 1) indent c
      (indent, breaks, c)
  let (text, last, further, c) := blockLines fold indent (c.rest.length + 1) breaks c
  match chomp with
  | .strip => return (text, c)
  | .clip => return (text ++ last, c)
  | .keep => return (text ++ last ++ further, c)

/-! ### Plain scalars -/

/-- The characters that structure a flow collection. -/
def isFlowMark (c : Char) : Bool :=
  c = ',' || c = '[' || c = ']' || c = '\x7b' || c = '\x7d'

/-- Whether a plain scalar ends before the first character of a text. -/
def endsPlain (inFlow : Bool) : List Char → Bool
  | [] => true
  | c :: rest =>
    endsWord (some c) ||
      (c = ':' && (endsWord rest.head? || (inFlow && (rest.head?.map isFlowMark).getD false))) ||
      (inFlow && (isFlowMark c || c = '?'))

/-- The word of a plain scalar at the start of a text. -/
def plainWord (inFlow : Bool) : List Char → List Char
  | [] => []
  | c :: rest => if endsPlain inFlow (c :: rest) then [] else c :: plainWord inFlow rest

/-- The blank lines between two lines of a plain scalar: their breaks and the place of the next
text; no breaks when a line that separates documents follows. -/
def plainBreaks : Nat → Cursor → Option (List Char) × Cursor
  | 0, c => (some [], c)
  | fuel + 1, c =>
    if c.isAt ' ' then plainBreaks fuel c.next
    else
      let (br, after) := c.lineBreak
      if br.isEmpty then (some [], c)
      else if after.atSeparator then (none, after)
      else
        let (more, c) := plainBreaks fuel after
        (more.map (br ++ ·), c)

/-- The blanks and breaks at a place in a plain scalar, folded, whether a break was among them, and
the place after them. -/
def plainSpaces (c : Cursor) : List Char × Bool × Cursor :=
  let (blanks, c) := c.span (· = ' ')
  let (br, after) := c.lineBreak
  if br.isEmpty then (blanks, false, c)
  else if after.atSeparator then ([], true, after)
  else
    match plainBreaks (after.rest.length + 1) after with
    | (none, c) => ([], true, c)
    | (some more, c) => (folded br more, true, c)

/-- What was read of a plain scalar: its text, whether a break was read after it, and the place. -/
structure PlainRead where
  text : List Char
  sawBreak : Bool
  place : Cursor

/-- The plain scalar from here on, after the blanks `before`. -/
def plainRest (inFlow : Bool) (indent : Int) : Nat → List Char → Bool → Cursor → PlainRead
  | 0, _, broke, c => ⟨[], broke, c⟩
  | fuel + 1, before, broke, c =>
    if c.isAt '#' then ⟨[], broke, c⟩
    else
      let word := plainWord inFlow c.rest
      if word.isEmpty then ⟨[], broke, c⟩
      else
        let (spaces, broke, c) := plainSpaces (Cursor.advance word.length c)
        -- A comment, or text further to the left, is not part of the scalar, and neither are the
        -- blanks before it.
        if spaces.isEmpty || c.isAt '#' || (!inFlow && (c.column : Int) < indent) then
          ⟨before ++ word, broke, c⟩
        else
          let more := plainRest inFlow indent fuel spaces broke c
          ⟨before ++ word ++ more.text, more.sawBreak, more.place⟩

/-- The plain scalar that starts here, inside something indented by `outer`. -/
def plain (inFlow : Bool) (outer : Int) (c : Cursor) : PlainRead :=
  plainRest inFlow (outer + 1) (c.rest.length + 1) [] false c

end PipelineRuns.Yaml.Scalar
