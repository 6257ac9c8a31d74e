/-!
# Letter case, as far as it leads into ASCII

Names of settings, answers to questions and names of resources are compared or kept in ASCII only,
so of the case maps of Unicode just those values matter that lie in ASCII. `Text.lower` and
`Text.upper` give these values exactly; a character whose image lies outside ASCII is left as it is,
which no comparison with an ASCII word can tell apart.

Outside ASCII two characters have a lower-case image with an ASCII character (the Kelvin sign and
the dotted capital I) and two have a single upper-case image in ASCII (the dotless small i and the
long s).
-/

namespace PipelineRuns.Text

/-- The lower-case image of a character where it holds an ASCII letter, else the character. -/
def lowerChar (c : Char) : List Char :=
  if c = '\u0130' then ['i', '\u0307']
  else if c = '\u212a' then ['k']
  else [c.toLower]

/-- The upper-case image of a character where it is an ASCII letter, else the character. -/
def upperChar (c : Char) : Char :=
  if c = '\u0131' then 'I'
  else if c = '\u017f' then 'S'
  else c.toUpper

/-- A text in lower case. -/
def lower (s : List Char) : List Char :=
  s.flatMap lowerChar

/-- A string in lower case. -/
def toLower (s : String) : String :=
  String.ofList (lower s.toList)

/-- A string in upper case. -/
def toUpper (s : String) : String :=
  String.ofList (s.toList.map upperChar)

/-- A string with the capital letters of ASCII made small and all else kept. -/
def toLowerAscii (s : String) : String :=
  String.ofList (s.toList.map Char.toLower)

end PipelineRuns.Text
