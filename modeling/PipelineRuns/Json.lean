import PipelineRuns.Text.Digit
import PipelineRuns.Text.Quoted
import PipelineRuns.Value.Basic

/-!
# JSON

`Json.parse` reads a JSON text into a `Value`, and `Json.write` writes one, on one line and in
ASCII. A number without a fraction and an exponent is an integer, of `Text.maxDigits` digits at
most, any other number is a floating point number; `NaN` and the two infinities are read and written
by name. Of two entries with one key the later one counts.

The reader works on characters, and each of its steps returns what follows the part that it read. A
step takes at least one character, so the length of the text bounds their number and serves as fuel.
-/

namespace PipelineRuns.Json

/-! ### Reading -/

/-- The blanks between the parts of a JSON text. -/
def isSpace (c : Char) : Bool :=
  c = ' ' || c = '\t' || c = '\n' || c = '\r'

/-- The text without the blanks at its start. -/
def skip (s : List Char) : List Char :=
  s.dropWhile isSpace

/-- The value of a digit of base 16. -/
def hexValue? (c : Char) : Option Nat :=
  let n := c.toNat
  if 48 ≤ n && n ≤ 57 then some (n - 48)
  else if 97 ≤ n && n ≤ 102 then some (n - 87)
  else if 65 ≤ n && n ≤ 70 then some (n - 55)
  else none

/-- The number written by four digits of base 16 at the start of a text, and the rest. -/
def hex4? : List Char → Option (Nat × List Char)
  | a :: b :: c :: d :: rest =>
    match hexValue? a, hexValue? b, hexValue? c, hexValue? d with
    | some a, some b, some c, some d => some (((a * 16 + b) * 16 + c) * 16 + d, rest)
    | _, _, _, _ => none
  | _ => none

/-- The character of a code in an escape, joined with the second half of a pair if one follows. Half
of a pair alone, which is no character, becomes the replacement character. -/
def joinPair (code : Nat) (rest : List Char) : Char × List Char :=
  if 0xd800 ≤ code && code < 0xdc00 then
    match rest with
    | '\\' :: 'u' :: more =>
      match hex4? more with
      | some (low, rest') =>
        if 0xdc00 ≤ low && low < 0xe000 then
          (Char.ofNat (0x10000 + (code - 0xd800) * 0x400 + (low - 0xdc00)), rest')
        else ('\ufffd', rest)
      | none => ('\ufffd', rest)
    | _ => ('\ufffd', rest)
  else if 0xdc00 ≤ code && code < 0xe000 then ('\ufffd', rest)
  else (Char.ofNat code, rest)

/-- The character of a one-letter escape. -/
def escaped? (c : Char) : Option Char :=
  if c = '"' || c = '\\' || c = '/' then some c
  else if c = 'b' then some '\x08'
  else if c = 'f' then some '\x0c'
  else if c = 'n' then some '\n'
  else if c = 'r' then some '\r'
  else if c = 't' then some '\t'
  else none

/-- The text up to the closing quote, after the characters `acc` in reverse, and what follows it. -/
def string? : Nat → List Char → List Char → Option (String × List Char)
  | 0, _, _ => none
  | _ + 1, _, [] => none
  | fuel + 1, acc, c :: rest =>
    if c = '"' then some (String.ofList acc.reverse, rest)
    else if c = '\\' then
      match rest with
      | 'u' :: more =>
        match hex4? more with
        | some (code, rest') =>
          let (ch, rest'') := joinPair code rest'
          string? fuel (ch :: acc) rest''
        | none => none
      | e :: more =>
        match escaped? e with
        | some ch => string? fuel (ch :: acc) more
        | none => none
      | [] => none
    else if c.toNat < 0x20 then none
    else string? fuel (c :: acc) rest

/-- The digits at the start of a text, and the rest. -/
def digits (s : List Char) : List Char × List Char :=
  (s.takeWhile Char.isDigit, s.dropWhile Char.isDigit)

/-- The fraction at the start of a text: its digits, if there is one, and the rest. -/
def fractionPart (s : List Char) : Option (List Char) × List Char :=
  match s with
  | '.' :: rest =>
    let (ds, rest') := digits rest
    if ds.isEmpty then (none, s) else (some ds, rest')
  | _ => (none, s)

/-- The exponent at the start of a text, if there is one, and the rest. -/
def exponentPart (s : List Char) : Option Int × List Char :=
  match s with
  | e :: rest =>
    if e = 'e' || e = 'E' then
      let (negative, unsigned) := match rest with
        | '-' :: r => (true, r)
        | '+' :: r => (false, r)
        | r => (false, r)
      let (ds, rest') := digits unsigned
      match Text.asciiNat? ds with
      | some n => (some (if negative then -(n : Int) else n), rest')
      | none => (none, s)
    else (none, s)
  | [] => (none, s)

/-- The number at the start of a text, without its sign, and the rest. -/
def number? (negative : Bool) (s : List Char) : Option (Value × List Char) :=
  let (ds, rest) := digits s
  match ds with
  | [] => none
  | '0' :: _ :: _ => finish ['0'] (ds.drop 1 ++ rest)
  | _ => finish ds rest
where
  /-- The number with these whole digits, and what follows it. -/
  finish (whole rest : List Char) : Option (Value × List Char) :=
    let (fraction, rest₁) := fractionPart rest
    let (exponent, rest₂) := exponentPart rest₁
    match Text.asciiNat? (whole ++ fraction.getD []) with
    | none => none
    | some n =>
      if fraction.isNone && exponent.isNone then
        if Text.maxDigits < whole.length then none
        else some (.int (if negative then -(n : Int) else n), rest₂)
      else
        let x := Number.ofDecimal n (exponent.getD 0 - ((fraction.getD []).length : Int))
        some (.float (if negative then -x else x), rest₂)

/-- The rest of a text after a word that it starts with. -/
def afterWord? (word : String) (s : List Char) : Option (List Char) :=
  if word.toList.isPrefixOf s then some (s.drop word.toList.length) else none

/-- The named value at the start of a text, and the rest. -/
def word? (s : List Char) : Option (Value × List Char) :=
  let words : List (String × Value) :=
    [("null", .null), ("true", .bool true), ("false", .bool false), ("NaN", .float (0.0 / 0.0)),
      ("Infinity", .float (1.0 / 0.0)), ("-Infinity", .float (-(1.0 / 0.0)))]
  words.findSome? (fun w => (afterWord? w.1 s).map (fun rest => (w.2, rest)))

mutual

/-- The value at the start of a text, and the rest. -/
def value? : Nat → List Char → Option (Value × List Char)
  | 0, _ => none
  | fuel + 1, s =>
    match s with
    | [] => none
    | '"' :: rest =>
      (string? (rest.length + 1) [] rest).map (fun r => (.text r.1, r.2))
    | '[' :: rest =>
      match skip rest with
      | ']' :: rest' => some (.list [], rest')
      | rest' => (items? fuel rest').map (fun r => (.list r.1, r.2))
    | '\x7b' :: rest =>
      match skip rest with
      | '\x7d' :: rest' => some (.mapping [], rest')
      | rest' => (entries? fuel [] rest').map (fun r => (.mapping r.1, r.2))
    | '-' :: rest =>
      match number? true rest with
      | some r => some r
      | none => word? s
    | _ =>
      match number? false s with
      | some r => some r
      | none => word? s

/-- The items of a list up to its closing bracket, and the rest. -/
def items? : Nat → List Char → Option (List Value × List Char)
  | 0, _ => none
  | fuel + 1, s =>
    match value? fuel s with
    | none => none
    | some (v, rest) =>
      match skip rest with
      | ',' :: more => (items? fuel (skip more)).map (fun r => (v :: r.1, r.2))
      | ']' :: more => some ([v], more)
      | _ => none

/-- The entries of a mapping up to its closing brace, added to those before, and the rest. -/
def entries? : Nat → Mapping → List Char → Option (Mapping × List Char)
  | 0, _, _ => none
  | fuel + 1, before, s =>
    match s with
    | '"' :: rest =>
      match string? (rest.length + 1) [] rest with
      | none => none
      | some (key, rest₁) =>
        match skip rest₁ with
        | ':' :: rest₂ =>
          match value? fuel (skip rest₂) with
          | none => none
          | some (v, rest₃) =>
            let m := before.insert (.text key) v
            match skip rest₃ with
            | ',' :: more => entries? fuel m (skip more)
            | '\x7d' :: more => some (m, more)
            | _ => none
        | _ => none
    | _ => none

end

/-- The value that a JSON text stands for; `none` for any other text. -/
def parse (s : String) : Option Value :=
  let chars := s.toList
  match value? (chars.length + 1) (skip chars) with
  | some (v, rest) => if (skip rest).isEmpty then some v else none
  | none => none

/-! ### Writing -/

/-- A code unit as an escape. -/
def escapeUnit (n : Nat) : List Char :=
  '\\' :: 'u' :: Text.hex 4 n

/-- One character inside quotes. -/
def escape (c : Char) : List Char :=
  if c = '"' || c = '\\' then ['\\', c]
  else if c = '\n' then ['\\', 'n']
  else if c = '\r' then ['\\', 'r']
  else if c = '\t' then ['\\', 't']
  else if c = '\x0c' then ['\\', 'f']
  else if c = '\x08' then ['\\', 'b']
  else if 0x20 ≤ c.toNat && c.toNat < 0x7f then [c]
  else if c.toNat < 0x10000 then escapeUnit c.toNat
  else
    let n := c.toNat - 0x10000
    escapeUnit (0xd800 + n / 0x400) ++ escapeUnit (0xdc00 + n % 0x400)

/-- A text between quotes. -/
def quoted (s : String) : String :=
  String.ofList ('"' :: (s.toList.flatMap escape ++ ['"']))

/-- A floating point number. -/
def floatText (x : Float) : String :=
  if x.isNaN then "NaN"
  else if x.isInf then (if x < 0.0 then "-Infinity" else "Infinity")
  else Number.text x

/-- The key of an entry; a key that is no text is written as one. -/
def keyText : Value → String
  | .text s => quoted s
  | .int n => quoted (toString n)
  | .bool b => if b then "\"true\"" else "\"false\""
  | .float x => quoted (floatText x)
  | _ => "\"null\""

mutual

/-- A value as JSON text; what JSON has no form for is written as null. -/
def write : Value → String
  | .null => "null"
  | .bool b => if b then "true" else "false"
  | .int n => toString n
  | .float x => floatText x
  | .text s => quoted s
  | .list xs => "[" ++ String.intercalate ", " (writeItems xs) ++ "]"
  | .mapping m => "\x7b" ++ String.intercalate ", " (writeEntries m) ++ "\x7d"
  | _ => "null"

/-- The items of a list as JSON texts. -/
def writeItems : List Value → List String
  | [] => []
  | v :: rest => write v :: writeItems rest

/-- The entries of a mapping as JSON texts. -/
def writeEntries : List (Value × Value) → List String
  | [] => []
  | (k, v) :: rest => (keyText k ++ ": " ++ write v) :: writeEntries rest

end

end PipelineRuns.Json
