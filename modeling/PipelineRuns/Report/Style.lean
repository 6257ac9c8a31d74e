import PipelineRuns.Report.State

/-!
# Styles

A `Style` decorates the text of a report for a terminal: states get a colour, headings are bold, and
a commit can be a hyperlink. Decorations are escape sequences around the text, which itself is kept,
so that widths are computed on the plain text.
-/

namespace PipelineRuns

/-- How a report is decorated. -/
inductive Style where
  | plain
  | ansi (hyperlinks : Bool)
  deriving DecidableEq, Repr, Inhabited

namespace Style

/-- The escape character. -/
def escape : String := "\x1b"

/-- Ends every decoration. -/
def reset : String := escape ++ "[0m"

/-- The number of a state's colour. -/
def color : DisplayState → String
  | .succeeded => "32"
  | .failed => "31"
  | .running => "34"
  | .unknown => "33"

/-- A text with the graphic rendition `code` switched on before and off after it. -/
def rendition (code text : String) : String :=
  escape ++ "[" ++ code ++ "m" ++ text ++ reset

/-- A text in the colour of a state. -/
def state (style : Style) (s : DisplayState) (text : String) : String :=
  match style with
  | plain => text
  | ansi _ => rendition (color s) text

/-- A text in bold. -/
def bold (style : Style) (text : String) : String :=
  match style with
  | plain => text
  | ansi _ => rendition "1" text

/-- The sequence that opens a link to `url`, or closes one if `url` is empty. -/
def linkMark (url : String) : String :=
  escape ++ "]8;;" ++ url ++ escape ++ "\\"

/-- A text that is a link to `url`. -/
def link (style : Style) (text url : String) : String :=
  match style with
  | ansi true => linkMark url ++ text ++ linkMark ""
  | _ => text

@[simp] theorem state_plain (s : DisplayState) (t : String) : plain.state s t = t := rfl

@[simp] theorem bold_plain (t : String) : plain.bold t = t := rfl

@[simp] theorem link_plain (t u : String) : plain.link t u = t := rfl

end Style

end PipelineRuns
