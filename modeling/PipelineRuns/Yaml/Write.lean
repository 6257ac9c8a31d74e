import PipelineRuns.Text.Quoted
import PipelineRuns.Value.Basic
import PipelineRuns.Yaml.Cursor
import PipelineRuns.Yaml.Scalar
import PipelineRuns.Yaml.Tag

/-!
# Writing YAML

`Yaml.write` writes a tree of texts, lists and mappings in block notation: a mapping as one line for
each entry, a list in the column of the key before it, and everything below indented by two more
spaces.

A text is written plain where that reads back as the same text; otherwise between single quotes,
unless it holds characters that only the escapes of double quotes can express (`Written.style`).
Lines longer than `lineWidth` are folded at a single space.

* `Written.Traits` collects what decides about the notation of a text, and `Written.traits` computes
  it;
* `Written.singleQuoted` and `Written.doubleQuoted` write the text between its quotes.
-/

namespace PipelineRuns.Yaml

/-- A tree of texts. -/
inductive Tree where
  | text (s : String)
  | list (items : List Tree)
  | mapping (entries : List (String × Tree))
  deriving Inhabited

/-- The column after which lines are folded. -/
def lineWidth : Nat := 1000

namespace Written

/-! ### The notation of a text -/

/-- The notations of a text. -/
inductive Style where
  | plain
  | single
  | double
  deriving DecidableEq, Repr

/-- A line break that is written as itself. A carriage return is not. -/
def isWrittenBreak (c : Char) : Bool :=
  c = '\n' || c = '\u0085' || c = '\u2028' || c = '\u2029'

/-- A character that needs no escape. -/
def isWritable (c : Char) : Bool :=
  let n := c.toNat
  c = '\n' || (0x20 ≤ n && n ≤ 0x7e) || n = 0x85 || (0xa0 ≤ n && n ≤ 0xd7ff) ||
    (0xe000 ≤ n && n ≤ 0xfffd && n ≠ 0xfeff) || (0x10000 ≤ n && n < 0x10ffff)

/-- Whether a character at the start of a text would be read as a mark. -/
def isLeadingMark (c : Char) : Bool :=
  "#,[]\x7b\x7d&*!|>'\"%@`".toList.contains c

/-- Whether the first character of a text would be read as a mark. -/
def startsWithMark : List Char → Bool
  | [] => false
  | c :: rest => isLeadingMark c || ((c = '?' || c = ':' || c = '-') && endsWord rest.head?)

/-- Whether a mark stands in the text after the character `before`. -/
def holdsMark : Char → List Char → Bool
  | _, [] => false
  | before, c :: rest =>
    (c = ':' && endsWord rest.head?) || (c = '#' && endsWord (some before)) || holdsMark c rest

/-- Whether two characters of these classes follow each other in a text. -/
def holdsPair (p q : Char → Bool) : List Char → Bool
  | c :: d :: rest => (p c && q d) || holdsPair p q (d :: rest)
  | _ => false

/-- What decides about the notation of a text. -/
structure Traits where
  isEmpty : Bool
  /-- A mark stands where it would be read as one. -/
  marks : Bool
  /-- A space or break stands at an end. -/
  bareEnds : Bool
  breaks : Bool
  /-- A space follows a break. -/
  spaceAfterBreak : Bool
  /-- A break follows a space. -/
  breakAfterSpace : Bool
  /-- A character needs an escape. -/
  special : Bool
  deriving DecidableEq, Repr

/-- A space or a line break. -/
def isSpaceOrBreak (c : Char) : Bool := c = ' ' || isWrittenBreak c

/-- The traits of a text. -/
def traits (s : List Char) : Traits where
  isEmpty := s.isEmpty
  marks := startsWithMark s || s.take 3 = ['-', '-', '-'] || s.take 3 = ['.', '.', '.'] ||
    (match s with
      | [] => false
      | c :: rest => holdsMark c rest)
  bareEnds := (s.head?.map isSpaceOrBreak).getD false || (s.getLast?.map isSpaceOrBreak).getD false
  breaks := s.any isWrittenBreak
  spaceAfterBreak := holdsPair isWrittenBreak (· = ' ') s
  breakAfterSpace := holdsPair (· = ' ') isWrittenBreak s
  special := s.any (fun c => !isWritable c)

/-- Whether a text with these traits can be written plain, if it reads back as a text. -/
def Traits.allowPlain (t : Traits) : Bool :=
  !(t.isEmpty || t.marks || t.bareEnds || t.breaks || t.spaceAfterBreak || t.breakAfterSpace ||
    t.special)

/-- Whether a text with these traits can be written between single quotes. -/
def Traits.allowSingle (t : Traits) : Bool :=
  !(t.spaceAfterBreak || t.breakAfterSpace || t.special)

/-- The notation of a text. -/
def style (s : String) : Style :=
  let t := traits s.toList
  if t.allowPlain && Tag.ofPlain s = .text then .plain
  else if t.allowSingle then .single
  else .double

/-! ### The text in its notation -/

/-- The spaces before a line. -/
def margin (indent : Nat) : List Char := List.replicate indent ' '

/-- A text between single quotes from `column` on, after the character `before` if there is one. A
single space beyond the width becomes a line break, and a break is written twice. -/
def singleBody (indent : Nat) : Option Char → Nat → List Char → List Char
  | _, _, [] => []
  | before, column, c :: rest =>
    if c = ' ' then
      if lineWidth < column && before.isSome && before ≠ some ' ' && rest.head? ≠ some ' ' &&
        !rest.isEmpty then
        '\n' :: (margin indent ++ singleBody indent (some c) indent rest)
      else c :: singleBody indent (some c) (column + 1) rest
    else if isWrittenBreak c then
      let isFirst := !((before.map isWrittenBreak).getD false)
      let isLast := !((rest.head?.map isWrittenBreak).getD false)
      (if isFirst && c = '\n' then ['\n'] else []) ++ c ::
        ((if isLast then margin indent else []) ++ singleBody indent (some c) indent rest)
    else if c = '\'' then '\'' :: '\'' :: singleBody indent (some c) (column + 2) rest
    else c :: singleBody indent (some c) (column + 1) rest

/-- A text between single quotes, the first of which stands in `column`. -/
def singleQuoted (indent column : Nat) (s : List Char) : List Char :=
  '\'' :: (singleBody indent none (column + 1) s ++ ['\''])

/-- The letters that escapes are written with. -/
def escapeLetters : List (Char × Char) :=
  [('\x00', '0'), ('\x07', 'a'), ('\x08', 'b'), ('\t', 't'), ('\n', 'n'), ('\x0b', 'v'),
    ('\x0c', 'f'), ('\r', 'r'), ('\x1b', 'e'), ('"', '"'), ('\\', '\\'), ('\u0085', 'N'),
    ('\u00a0', '_'), ('\u2028', 'L'), ('\u2029', 'P')]

/-- Whether a character stands for itself between double quotes. -/
def isDirect (c : Char) : Bool :=
  let n := c.toNat
  c ≠ '"' && c ≠ '\\' &&
    ((0x20 ≤ n && n ≤ 0x7e) || (0xa0 ≤ n && n ≤ 0xd7ff && n ≠ 0x2028 && n ≠ 0x2029) ||
    (0xe000 ≤ n && n ≤ 0xfffd && n ≠ 0xfeff))

/-- A number with digits of base 16 in upper case. -/
def upperHex (width n : Nat) : List Char :=
  (Text.hex width n).map Char.toUpper

/-- The escape of a character. -/
def escape (c : Char) : List Char :=
  match escapeLetters.lookup c with
  | some letter => ['\\', letter]
  | none =>
    if c.toNat ≤ 0xff then '\\' :: 'x' :: upperHex 2 c.toNat
    else if c.toNat ≤ 0xffff then '\\' :: 'u' :: upperHex 4 c.toNat
    else '\\' :: 'U' :: upperHex 8 c.toNat

/-- A text between double quotes from `column` on; `first` before its first character. Beyond the
width a line ends in a backslash before a space or after an escape, and a backslash keeps a space at
the start of the next one. -/
def doubleBody (indent : Nat) : Bool → Nat → List Char → List Char
  | _, _, [] => []
  | first, column, c :: rest =>
    if isDirect c then
      if c = ' ' && !first && !rest.isEmpty && lineWidth < column then
        '\\' :: '\n' :: (margin indent ++ '\\' :: c :: doubleBody indent false (indent + 2) rest)
      else c :: doubleBody indent false (column + 1) rest
    else
      let e := escape c
      if !first && !rest.isEmpty && lineWidth < column + e.length then
        let guarded := rest.head? = some ' '
        e ++ '\\' :: '\n' :: (margin indent ++ (if guarded then ['\\'] else []) ++
          doubleBody indent false (indent + (if guarded then 1 else 0)) rest)
      else e ++ doubleBody indent false (column + e.length) rest

/-- A text between double quotes, the first of which stands in `column`. -/
def doubleQuoted (indent column : Nat) (s : List Char) : List Char :=
  '"' :: (doubleBody indent true (column + 1) s ++ ['"'])

/-- A plain text from `column` on. A single space beyond the width becomes a line break. -/
def plainBody (indent : Nat) : Option Char → Nat → List Char → List Char
  | _, _, [] => []
  | before, column, c :: rest =>
    if c = ' ' && before ≠ some ' ' && rest.head? ≠ some ' ' && lineWidth < column then
      '\n' :: (margin indent ++ plainBody indent (some c) indent rest)
    else c :: plainBody indent (some c) (column + 1) rest

/-- A text that starts in `column`, its further lines indented by `indent`. -/
def scalar (indent column : Nat) (s : String) : List Char :=
  match style s with
  | .plain => plainBody indent none column s.toList
  | .single => singleQuoted indent column s.toList
  | .double => doubleQuoted indent column s.toList

/-! ### Collections -/

mutual

/-- What follows the colon after a key, inside a mapping indented by `indent`; `column` is that of
the colon's right neighbour. -/
def afterKey (indent column : Nat) : Tree → List Char
  | .text s => ' ' :: (scalar (indent + 2) (column + 1) s ++ ['\n'])
  | .list [] => " []\n".toList
  | .mapping [] => " \x7b\x7d\n".toList
  | .list items => '\n' :: listLines indent items
  | .mapping entries => '\n' :: mappingLines (indent + 2) true entries

/-- What follows a dash in column `indent`. -/
def afterDash (indent : Nat) : Tree → List Char
  | .text s => scalar (indent + 2) (indent + 2) s ++ ['\n']
  | .list [] => "[]\n".toList
  | .mapping [] => "\x7b\x7d\n".toList
  | .list items => listTail (indent + 2) items
  | .mapping entries => mappingLines (indent + 2) false entries

/-- The lines of a list. -/
def listLines (indent : Nat) : List Tree → List Char
  | [] => []
  | t :: rest => margin indent ++ '-' :: ' ' :: (afterDash indent t ++ listLines indent rest)

/-- The lines of a list whose first dash stands after another one. -/
def listTail (indent : Nat) : List Tree → List Char
  | [] => []
  | t :: rest => '-' :: ' ' :: (afterDash indent t ++ listLines indent rest)

/-- The lines of a mapping; the first one is indented already unless `fresh`. -/
def mappingLines (indent : Nat) (fresh : Bool) : List (String × Tree) → List Char
  | [] => []
  | (k, t) :: rest =>
    let written := scalar indent indent k
    (if fresh then margin indent else []) ++ written ++ ':' ::
      (afterKey indent (indent + written.length + 1) t ++ mappingLines indent true rest)

end

end Written

/-- A tree as a YAML document. -/
def write : Tree → String
  | .text s => String.ofList (Written.scalar 0 0 s ++ ['\n'])
  | .list items => String.ofList (Written.listLines 0 items)
  | .mapping entries => String.ofList (Written.mappingLines 0 true entries)

end PipelineRuns.Yaml
