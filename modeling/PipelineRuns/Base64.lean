import PipelineRuns.Text.Blank

/-!
# Base64

Three bytes are written as four characters of an alphabet of 64, and a group of one or two bytes at
the end is filled up with the pad character. `Base64.encode` writes, `Base64.decode` reads strictly
and names what is wrong with a text it refuses, and `Base64.decodeLoosely` skips every character
outside the alphabet.

The reader works through the text with a `Cursor`: the bytes so far, the place within the group of
four, the bits carried over and the pad characters met.
-/

namespace PipelineRuns.Base64

/-- The 64 characters, by value. -/
def alphabet : List Char :=
  "ABCDEFGHIJKLMNOPQRSTUVWXYZabcdefghijklmnopqrstuvwxyz0123456789+/".toList

/-- The value of a character. -/
def value? (c : Char) : Option Nat :=
  let n := c.toNat
  if 65 ≤ n && n ≤ 90 then some (n - 65)
  else if 97 ≤ n && n ≤ 122 then some (n - 71)
  else if 48 ≤ n && n ≤ 57 then some (n + 4)
  else if n = 43 then some 62
  else if n = 47 then some 63
  else none

/-- The character with value `n`. -/
def letter (n : Nat) : Char :=
  alphabet.getD n 'A'

/-- Bytes as Base64 text. -/
def encode : List UInt8 → List Char
  | [] => []
  | [a] => [letter (a.toNat / 4), letter (a.toNat % 4 * 16), '=', '=']
  | [a, b] =>
    [letter (a.toNat / 4), letter (a.toNat % 4 * 16 + b.toNat / 16), letter (b.toNat % 16 * 4), '=']
  | a :: b :: c :: rest =>
    letter (a.toNat / 4) :: letter (a.toNat % 4 * 16 + b.toNat / 16) ::
      letter (b.toNat % 16 * 4 + c.toNat / 64) :: letter (c.toNat % 64) :: encode rest

/-- What is wrong with a text that is not Base64. -/
inductive Fault where
  | notAscii
  | leadingPad
  | afterPad
  | outsideAlphabet
  | brokenPad
  | missingPad
  /-- One character is left over after so many. -/
  | danglingCharacter (count : Nat)
  deriving DecidableEq, Repr

/-- The text that names a fault. -/
def Fault.message : Fault → String
  | .notAscii => "string argument should contain only ASCII characters"
  | .leadingPad => "Leading padding not allowed"
  | .afterPad => "Excess data after padding"
  | .outsideAlphabet => "Only base64 data is allowed"
  | .brokenPad => "Discontinuous padding not allowed"
  | .missingPad => "Incorrect padding"
  | .danglingCharacter count =>
    "Invalid base64-encoded string: number of data characters (" ++ toString count ++
      ") cannot be 1 more than a multiple of 4"

/-- Where a reader stands: the bytes read, the last one first, the place in the group of four, the
bits carried over from the last character and the number of pad characters since. -/
structure Cursor where
  bytes : List UInt8 := []
  place : Nat := 0
  carried : Nat := 0
  pads : Nat := 0

/-- A character with value `v` is read. -/
def Cursor.push (c : Cursor) (v : Nat) : Cursor :=
  match c.place with
  | 0 => { c with place := 1, carried := v, pads := 0 }
  | 1 => ⟨UInt8.ofNat (c.carried * 4 + v / 16) :: c.bytes, 2, v % 16, 0⟩
  | 2 => ⟨UInt8.ofNat (c.carried * 16 + v / 4) :: c.bytes, 3, v % 4, 0⟩
  | _ => ⟨UInt8.ofNat (c.carried * 64 + v) :: c.bytes, 0, 0, 0⟩

/-- The end of the text is reached. -/
def Cursor.finish (c : Cursor) : Except Fault (List UInt8) :=
  if c.place = 0 then .ok c.bytes.reverse
  else if c.place = 1 then .error (.danglingCharacter (c.bytes.length / 3 * 4 + 1))
  else .error .missingPad

/-- Reads on from `c`; nothing outside the alphabet is let through, and pad characters only where
they fill up the last group. -/
def read (c : Cursor) : List Char → Except Fault (List UInt8)
  | [] => c.finish
  | ch :: rest =>
    if ch = '=' then
      -- The group is filled up by this pad character, so the text has to end here.
      if c.place ≥ 2 && c.place + (c.pads + 1) ≥ 4 then
        if rest.isEmpty then .ok c.bytes.reverse else .error .afterPad
      else if c.place = 0 && c.bytes.isEmpty && c.pads = 0 then .error .leadingPad
      else read { c with pads := c.pads + 1 } rest
    else
      match value? ch with
      | none => .error .outsideAlphabet
      | some v =>
        if c.pads ≠ 0 then .error .brokenPad
        else read (c.push v) rest

/-- The bytes that a Base64 text stands for. -/
def decode (s : List Char) : Except Fault (List UInt8) :=
  if s.any (fun c => 0x7f < c.toNat) then .error .notAscii else read {} s

/-- Reads on from `c`, skipping what is outside the alphabet, up to the pad that fills up a
group. -/
def readLoosely (c : Cursor) : List Char → Except Fault (List UInt8)
  | [] => c.finish
  | ch :: rest =>
    if ch = '=' then
      if c.place ≥ 2 && c.place + (c.pads + 1) ≥ 4 then .ok c.bytes.reverse
      else readLoosely { c with pads := c.pads + 1 } rest
    else
      match value? ch with
      | none => readLoosely c rest
      | some v => readLoosely (c.push v) rest

/-- The bytes of a Base64 text, of which all characters outside the alphabet are skipped. -/
def decodeLoosely (s : List Char) : Except Fault (List UInt8) :=
  readLoosely {} s

end PipelineRuns.Base64
