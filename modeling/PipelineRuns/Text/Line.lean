/-!
# Line boundaries and line endings

`Text.isBoundary` is the class of characters that end a line of text in the wide sense: line feed,
carriage return, vertical tab, form feed, the file, group and record separators, next line, and the
two separators of Unicode. `Text.firstLine` is the text up to the first of them.

`Text.unifyNewlines` reads a text file: the endings `\r\n` and `\r` become `\n`.
-/

namespace PipelineRuns.Text

/-- The characters that end a line. -/
def isBoundary (c : Char) : Bool :=
  let n := c.toNat
  (0x0a ≤ n && n ≤ 0x0d) || (0x1c ≤ n && n ≤ 0x1e) || n == 0x85 || n == 0x2028 || n == 0x2029

/-- The text up to its first line boundary. -/
def firstLine (s : List Char) : List Char :=
  s.takeWhile (fun c => !isBoundary c)

/-- A carriage return, alone or before a line feed, is read as one line feed. -/
def unifyNewlines : List Char → List Char
  | [] => []
  | '\r' :: '\n' :: rest => '\n' :: unifyNewlines rest
  | c :: rest => (if c = '\r' then '\n' else c) :: unifyNewlines rest

/-- The pieces of a text between the places where `c` stands; one more than there are such
places. -/
def splitAt (c : Char) : List Char → List (List Char)
  | [] => [[]]
  | d :: rest =>
    if d = c then [] :: splitAt c rest
    else
      match splitAt c rest with
      | [] => [[d]]
      | piece :: pieces => (d :: piece) :: pieces

/-- The pieces of a string between the places where `c` stands. -/
def split (c : Char) (s : String) : List String :=
  (splitAt c s.toList).map String.ofList

/-- A string cut at the first place where `c` stands, without `c`; `none` when it does not occur. -/
def cut? (c : Char) (s : String) : Option (String × String) :=
  let before := s.toList.takeWhile (· ≠ c)
  match s.toList.dropWhile (· ≠ c) with
  | [] => none
  | _ :: after => some (String.ofList before, String.ofList after)

end PipelineRuns.Text
