/-!
# Channels

The parts of a program write their notes to channels. The name of a channel has parts between dots,
and a channel lies below the ones whose names are its own up to a dot: `urllib3.util.retry` lies
below `urllib3.util`, and that below `urllib3`. All channels lie below the one without a name of its
own, the root.

`Channel.lineage` lists a channel and those above it, the nearest first, without the root.
-/

namespace PipelineRuns.Channel

/-- The name of the root. -/
def root : String := "root"

/-- The channel that is asked for by a name; no name asks for the root. -/
def named (name : String) : String :=
  if name = "" then root else name

/-- The names above a name that is read from its end. A part may not be empty: a dot at the start of
a name, or right before another one that counts, does not count. -/
def aboveReversed : List Char → List (List Char)
  | [] => []
  | ['.'] => []
  | '.' :: c :: rest => (c :: rest).reverse :: aboveReversed rest
  | _ :: rest => aboveReversed rest

/-- The channels above a channel, the nearest first. -/
def above (channel : String) : List String :=
  (aboveReversed channel.toList.reverse).map String.ofList

/-- A channel and those above it, the nearest first. -/
def lineage (channel : String) : List String :=
  channel :: above channel

end PipelineRuns.Channel
