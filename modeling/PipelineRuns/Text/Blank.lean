/-!
# White space and trimming

`Text.isBlank` is the white space of Unicode together with the four information separators
`U+001C`-`U+001F`; it is the class that every trimming of this library removes. The functions work
on lists of characters, and `Text.strip` lifts trimming to strings.

* `Text.trimLeft`, `Text.trimRight` and `Text.trim` drop the blanks at the start, at the end and on
  both sides;
* `Text.isBlankText` says that a text holds nothing but blanks;
* `Text.words` cuts a text at its blanks and `Text.withoutBlanks` leaves them out.
-/

namespace PipelineRuns.Text

/-- White space: the characters that trimming removes. -/
def isBlank (c : Char) : Bool :=
  let n := c.toNat
  (0x09 ≤ n && n ≤ 0x0d) || (0x1c ≤ n && n ≤ 0x20) || n == 0x85 || n == 0xa0 || n == 0x1680 ||
    (0x2000 ≤ n && n ≤ 0x200a) || n == 0x2028 || n == 0x2029 || n == 0x202f || n == 0x205f ||
    n == 0x3000

/-- The text without the blanks at its start. -/
def trimLeft (s : List Char) : List Char :=
  s.dropWhile isBlank

/-- The text without the characters at its end that satisfy `p`. -/
def dropRightWhile (p : Char → Bool) : List Char → List Char
  | [] => []
  | c :: rest =>
    match dropRightWhile p rest with
    | [] => if p c then [] else [c]
    | kept => c :: kept

/-- The text without the blanks at its end. -/
def trimRight (s : List Char) : List Char :=
  dropRightWhile isBlank s

/-- The text without the blanks on either side. -/
def trim (s : List Char) : List Char :=
  trimRight (trimLeft s)

@[simp] theorem trimLeft_nil : trimLeft [] = [] := rfl

@[simp] theorem trimRight_nil : trimRight [] = [] := rfl

@[simp] theorem trim_nil : trim [] = [] := rfl

/-- A string without the blanks on either side. -/
def strip (s : String) : String :=
  String.ofList (trim s.toList)

/-- A string without the blanks at its end. -/
def stripRight (s : String) : String :=
  String.ofList (trimRight s.toList)

@[simp] theorem toList_strip (s : String) : (strip s).toList = trim s.toList :=
  String.toList_ofList

/-- A text without the slashes at its end. -/
def dropSlashes (s : List Char) : List Char :=
  dropRightWhile (· = '/') s

/-- Nothing but blanks, or nothing at all. -/
def isBlankText (s : String) : Bool :=
  s.toList.all isBlank

/-- A text without any of its blanks. -/
def withoutBlanks (s : List Char) : List Char :=
  s.filter (fun c => !isBlank c)

/-- The stretches of a text between its blanks. -/
def words (s : List Char) : List (List Char) :=
  (s.splitOnP isBlank).filter (fun w => !w.isEmpty)

end PipelineRuns.Text
