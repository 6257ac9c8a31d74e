/-!
# Places in a YAML text

A `Cursor` is a place in a text: what is left to read, how many characters were read, and the line
and column, both counted from zero. `Cursor.next` moves over one character, `Cursor.span` over all
characters of a class, `Cursor.lineBreak` over one line break.

The classes of characters that end a word or a line also hold of the end of the text, so they are
predicates on `Option Char`.
-/

namespace PipelineRuns.Yaml

/-- Why a text is refused. -/
inductive Fault where
  | notYaml
  /-- A number means nothing: it is the code of no character, or has too many digits. -/
  | badNumber
  /-- The code of a character is beyond 31 bits. -/
  | outOfRange
  /-- An escape names a lone surrogate, which is no character here. -/
  | leftOut
  deriving DecidableEq, Repr

/-- The characters that break a line. -/
def isBreak (c : Char) : Bool :=
  c = '\n' || c = '\r' || c = '\u0085' || c = '\u2028' || c = '\u2029'

/-- A line break, or the end of the text. -/
def endsLine : Option Char → Bool
  | none => true
  | some c => isBreak c

/-- A space, a line break, or the end of the text. -/
def endsName : Option Char → Bool
  | none => true
  | some c => c = ' ' || isBreak c

/-- A space, a tab, a line break, or the end of the text. -/
def endsWord : Option Char → Bool
  | none => true
  | some c => c = ' ' || c = '\t' || isBreak c

/-- A place in a text. -/
structure Cursor where
  rest : List Char
  index : Nat := 0
  line : Nat := 0
  column : Nat := 0
  deriving Repr

namespace Cursor

/-- The character at a place. -/
def peek (c : Cursor) : Option Char := c.rest.head?

/-- The character `n` places further on. -/
def peekAt (c : Cursor) (n : Nat) : Option Char := c.rest[n]?

/-- Whether the character at a place is `ch`. -/
def isAt (c : Cursor) (ch : Char) : Bool := c.peek = some ch

/-- The place after the next character. A byte order mark takes no column, and a carriage return
before a line feed does not end the line by itself. -/
def next (c : Cursor) : Cursor :=
  match c.rest with
  | [] => c
  | ch :: rest =>
    if isBreak ch && !(ch = '\r' && rest.head? = some '\n') then ⟨rest, c.index + 1, c.line + 1, 0⟩
    else if ch = '\ufeff' then { c with rest := rest, index := c.index + 1 }
    else ⟨rest, c.index + 1, c.line, c.column + 1⟩

/-- The place `n` characters further on. -/
def advance : Nat → Cursor → Cursor
  | 0, c => c
  | n + 1, c => advance n c.next

/-- The characters up to the first one outside a class, and the place of that one. -/
def span (p : Char → Bool) (c : Cursor) : List Char × Cursor :=
  let taken := c.rest.takeWhile p
  (taken, advance taken.length c)

/-- The place of the first character outside a class. -/
def skip (p : Char → Bool) (c : Cursor) : Cursor :=
  (c.span p).2

/-- The place after the spaces. -/
def skipSpaces (c : Cursor) : Cursor :=
  c.skip (· = ' ')

/-- The line break at a place and the place after it. The breaks of ASCII and `U+0085` are read as a
line feed, the two separators as themselves. -/
def lineBreak (c : Cursor) : List Char × Cursor :=
  match c.rest with
  | '\r' :: '\n' :: _ => (['\n'], c.next.next)
  | ch :: _ =>
    if ch = '\u2028' || ch = '\u2029' then ([ch], c.next)
    else if isBreak ch then (['\n'], c.next)
    else ([], c)
  | [] => ([], c)

/-- The place after a comment, if one starts here. -/
def skipComment (c : Cursor) : Cursor :=
  if c.isAt '#' then c.skip (fun ch => !isBreak ch) else c

/-- The place after the line, which may hold nothing more than a comment. -/
def restOfLine (c : Cursor) : Except Fault Cursor :=
  let c := c.skipSpaces.skipComment
  if endsLine c.peek then .ok c.lineBreak.2 else .error .notYaml

/-- Whether three times the character `ch` stand here as a word. -/
def atMark (ch : Char) (c : Cursor) : Bool :=
  c.rest.take 3 = [ch, ch, ch] && endsWord (c.peekAt 3)

/-- Whether a line that separates documents starts here. -/
def atSeparator (c : Cursor) : Bool :=
  c.atMark '-' || c.atMark '.'

end Cursor

end PipelineRuns.Yaml
