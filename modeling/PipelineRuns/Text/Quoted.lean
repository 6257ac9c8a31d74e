import PipelineRuns.Text.Printable

/-!
# Quoted text

A text or a byte string inside a list, a mapping or a message is shown between quotes, so that it
can be told from what stands around it. `Text.quoted` and `Text.quotedBytes` choose the single quote
unless the text holds one and no double quote, escape the backslash and the quote in use, write tab,
line feed and carriage return by letter, and write every other character that is not printable by
its code.
-/

namespace PipelineRuns.Text

/-- The digit of base 16 with value `n`, in lower case. -/
def hexDigit (n : Nat) : Char :=
  if n < 10 then Char.ofNat ('0'.toNat + n) else Char.ofNat ('a'.toNat + (n - 10))

/-- The last `width` digits of `n` in base 16. -/
def hex : Nat → Nat → List Char
  | 0, _ => []
  | width + 1, n => hex width (n / 16) ++ [hexDigit (n % 16)]

/-- The quote that a text is put between. -/
def quoteFor (s : List Char) : Char :=
  if s.contains '\'' && !s.contains '"' then '"' else '\''

/-- One character between quotes `q`. -/
def escapeChar (q c : Char) : List Char :=
  if c = q || c = '\\' then ['\\', c]
  else if c = '\t' then ['\\', 't']
  else if c = '\n' then ['\\', 'n']
  else if c = '\r' then ['\\', 'r']
  else if isPrintable c then [c]
  else if c.toNat ≤ 0xff then '\\' :: 'x' :: hex 2 c.toNat
  else if c.toNat ≤ 0xffff then '\\' :: 'u' :: hex 4 c.toNat
  else '\\' :: 'U' :: hex 8 c.toNat

/-- A text between quotes. -/
def quoted (s : String) : String :=
  let q := quoteFor s.toList
  String.ofList (q :: (s.toList.flatMap (escapeChar q) ++ [q]))

/-- One byte between quotes `q`. -/
def escapeByte (q : Char) (b : UInt8) : List Char :=
  let c := Char.ofNat b.toNat
  if b.toNat < 0x7f then escapeChar q c else '\\' :: 'x' :: hex 2 b.toNat

/-- A byte string between quotes, with its mark in front. -/
def quotedBytes (bytes : List UInt8) : String :=
  let q := quoteFor (bytes.map (fun b => Char.ofNat b.toNat))
  String.ofList ('b' :: q :: (bytes.flatMap (escapeByte q) ++ [q]))

end PipelineRuns.Text
