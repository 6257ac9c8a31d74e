import PipelineRuns.Text.Blank
import PipelineRuns.Text.Case

/-!
# Names of resources

`ResourceName.sanitize` turns any text into a name that a cluster accepts: small letters, digits and
single dashes, with a letter or digit at both ends, and at most 63 characters. Blanks, dots and
underscores become dashes and everything else is dropped; nothing may be left.

The characters are mapped one by one (`ResourceName.letters`), runs of dashes are joined
(`ResourceName.joinDashes`), and dashes at the ends are removed, once before and once after the cut.
-/

namespace PipelineRuns.ResourceName

/-- The characters of a name. -/
def isNameChar (c : Char) : Bool :=
  ('a' ≤ c && c ≤ 'z') || ('0' ≤ c && c ≤ '9') || c = '-'

/-- What a character of the lower-case text becomes. -/
def letters (c : Char) : List Char :=
  if c = ' ' || c = '.' || c = '_' then ['-']
  else if isNameChar c then [c]
  else []

/-- One dash for each run of dashes. -/
def joinDashes : List Char → List Char
  | [] => []
  | c :: rest =>
    match joinDashes rest with
    | [] => [c]
    | d :: kept => if c = '-' && d = '-' then d :: kept else c :: d :: kept

/-- The text without the dashes at its end. -/
def dropTrailingDashes (s : List Char) : List Char :=
  Text.dropRightWhile (· = '-') s

/-- The text without the dashes at its ends. -/
def trimDashes (s : List Char) : List Char :=
  dropTrailingDashes (s.dropWhile (· = '-'))

/-- The longest name of a resource. -/
def maxLength : Nat := 63

/-- The first `n` characters of a text, or all but the last `-n` where `n` is negative. -/
def firstChars (n : Int) (s : List Char) : List Char :=
  if 0 ≤ n then s.take n.toNat else s.take (s.length - n.natAbs)

/-- The name as it is before the cut. -/
def whole (s : List Char) : List Char :=
  trimDashes (joinDashes ((Text.trim (Text.lower s)).flatMap letters))

/-- The name made of the characters of a text, of at most `limit` characters. -/
def sanitizeChars (limit : Int) (s : List Char) : List Char :=
  let name := whole s
  if limit < name.length then dropTrailingDashes (firstChars limit name) else name

/-- The name made of a text, of at most `limit` characters. -/
def sanitize (s : String) (limit : Int) : String :=
  String.ofList (sanitizeChars limit s.toList)

end PipelineRuns.ResourceName
