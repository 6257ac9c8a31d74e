import PipelineRuns.CommandLine.Layout
import PipelineRuns.Text.Digit

/-!
# Reading command lines

Arguments are read in two passes. The first tells for each argument, by itself, what piece of the
command line it is (`Piece`): a word, a switch with or without a value attached, or an unknown
switch. The first `--` is a separator, after which everything is a word. The second pass goes
through the pieces in order and collects what they say (`Findings`): a switch without an attached
value takes the next piece, which has to be a word; the first word is the one that is required, and
all others are left over.

Where releases of this convention differ, the older one counts. A cluster of one-letter switches
that ends in an unknown letter is an error as a whole (`-vx`), where a newer release takes the
switches and leaves the letter over; and a separator that is attached to a switch is dropped, so
that the switch has no value at all (`--event-type=--`), where a newer release takes it for the
value.

* `Grammar.classify` is the first pass on one argument;
* `Grammar.collect` is the second pass;
* `Grammar.parseKnown` does both, and `Grammar.parse` refuses what is left over.
-/

namespace PipelineRuns.CommandLine

/-- What an argument is. -/
inductive Piece where
  | word (text : String)
  | separator
  /-- A switch under one of its names, with the value attached to it. -/
  | switch (s : Switch) (name : String) (attached : Option String)
  | unknown (text : String)
  deriving DecidableEq, Repr

/-- The separator between switches and words. -/
def separatorText : String := "--"

/-- Whether a text is a negative number in decimal digits, with a fraction or without; a line feed
at its end makes no difference. -/
def isNegativeNumber : List Char → Bool
  | '-' :: rest =>
    let number := if rest.getLast? = some '\n' then rest.dropLast else rest
    let isDecimal := fun c => (Text.digitValue? c).isSome
    match number.dropWhile isDecimal with
    | [] => !number.isEmpty
    | '.' :: fraction => !fraction.isEmpty && fraction.all isDecimal
    | _ => false
  | _ => false

/-- What an argument with a dash is that names no switch. -/
def Piece.ofUnnamed (argument : String) : Piece :=
  if isNegativeNumber argument.toList || argument.toList.contains ' ' then .word argument
  else .unknown argument

namespace Grammar

/-- The names that a text is the beginning of, with their switches. -/
def completions (g : Grammar) (start : String) : List (String × Switch) :=
  g.switches.flatMap (fun s =>
    (s.names.filter (fun n => start.toList.isPrefixOf n.toList)).map (fun n => (n, s)))

/-- An argument cut at the equals sign that ends its name. -/
def nameAndValue (argument : String) : String × Option String :=
  match Text.cut? '=' argument with
  | some (name, value) => (name, some value)
  | none => (argument, none)

/-- The switch that a shortened long name means. -/
def shortened (g : Grammar) (argument : String) : Except UsageFault Piece :=
  let (start, value) := nameAndValue argument
  match if g.shortens then g.completions start else [] with
  | [] => .ok (.ofUnnamed argument)
  | [(name, s)] => .ok (.switch s name value)
  | many => .error (.ambiguous argument (many.map (·.1)))

/-- The switch that an argument names before an equals sign. -/
def assigned? (g : Grammar) (argument : String) : Option Piece :=
  match nameAndValue argument with
  | (name, some value) => (g.named? name).map (fun s => .switch s name (some value))
  | (_, none) => none

/-- What an argument before the separator is. -/
def classify (g : Grammar) (argument : String) : Except UsageFault Piece :=
  match argument.toList with
  | '-' :: second :: rest =>
    match g.named? argument with
    | some s => .ok (.switch s argument none)
    | none =>
      match g.assigned? argument with
      | some p => .ok p
      | none =>
        -- Only long names can be shortened, and only short ones have their value right behind them.
        if second = '-' then g.shortened argument
        else
          let short := String.ofList ['-', second]
          match g.named? short with
          | some s => .ok (.switch s short (some (String.ofList rest)))
          | none => .ok (.ofUnnamed argument)
  | _ => .ok (.word argument)

/-- The pieces of a command line. -/
def pieces (g : Grammar) : List String → Except UsageFault (List Piece)
  | [] => .ok []
  | a :: rest =>
    if a = separatorText then .ok (.separator :: rest.map .word)
    else do
      let p ← g.classify a
      return p :: (← pieces g rest)

end Grammar

/-! ### Collecting -/

/-- What the pieces of a command line say; of values under one key the first counts. -/
structure Findings where
  flags : List String := []
  values : List (String × OptionValue) := []
  word : Option String := none
  extras : List String := []
  deriving DecidableEq, Repr

namespace Findings

/-- Whether a flag is set. -/
def has (f : Findings) (key : String) : Bool := f.flags.contains key

/-- The value of a switch. -/
def value (f : Findings) (key : String) : OptionValue := (f.values.lookup key).getD .absent

/-- The findings with arguments left over. -/
def spare (f : Findings) (arguments : List String) : Findings :=
  { f with extras := f.extras ++ arguments }

/-- Whether the word that a grammar requires is still missing. -/
def lacksWord (f : Findings) (g : Grammar) : Bool :=
  g.word.isSome && f.word.isNone

/-- The findings with a word, which is the required one or left over together with the pieces that
it stands among. -/
def addWord (f : Findings) (g : Grammar) (word : String) (among : List String) : Findings :=
  if f.lacksWord g then { f with word := some word } else f.spare among

end Findings

/-- Why no findings come out of a command line. -/
inductive Stop where
  | fault (f : UsageFault)
  | help
  | version
  deriving DecidableEq, Repr

/-- What the value of a switch tells. -/
def OptionValue.ofArgument (value : String) : OptionValue :=
  if value = separatorText then .blank else .text value

/-- The findings with a switch. -/
def Switch.take (s : Switch) (value : String) (f : Findings) : Except Stop Findings :=
  match s.role with
  | .help => .error .help
  | .version => .error .version
  | .flag => .ok { f with flags := s.key :: f.flags }
  | .value _ choices =>
    if choices.isEmpty || choices.contains value || value = separatorText then
      .ok { f with values := (s.key, OptionValue.ofArgument value) :: f.values }
    else .error (.fault (.badChoice s value choices))

/-- The findings with switches that take no value. -/
def takeFlags : List Switch → Findings → Except Stop Findings
  | [], f => .ok f
  | s :: rest, f => do takeFlags rest (← s.take "" f)

/-- Several switches in one argument: the ones before the last, the last one, and the value attached
to it. -/
structure Cluster where
  before : List Switch := []
  last : Switch
  attached : Option String := none
  deriving DecidableEq, Repr

namespace Grammar

/-- The switches that a switch and the text attached to it stand for. After a switch with a short
name that takes no value, the text goes on with the letter of the next one. -/
def cluster (g : Grammar) (s : Switch) (isShort : Bool) : List Char → Except UsageFault Cluster
  | [] => if s.takesValue then .ok { last := s, attached := some "" }
    else .error (.takesNoValue s "")
  | c :: rest =>
    if s.takesValue then .ok { last := s, attached := some (String.ofList (c :: rest)) }
    else
      match if isShort then g.named? (String.ofList ['-', c]) else none with
      | none => .error (.takesNoValue s (String.ofList (c :: rest)))
      | some next =>
        if rest.isEmpty then .ok { before := [s], last := next }
        else (cluster g next isShort rest).map (fun k => { k with before := s :: k.before })

/-- The switches of a piece. -/
def clusterOf (g : Grammar) (s : Switch) (name : String) : Option String → Except UsageFault Cluster
  | none => .ok { last := s }
  | some attached => g.cluster s (name.toList[1]? ≠ some '-') attached.toList

/-- The findings of pieces, added to those before. -/
def collect (g : Grammar) : Findings → List Piece → Except Stop Findings
  | f, [] => .ok f
  -- A separator beside a word goes where the word goes; it is left over with it or dropped with it.
  | f, .word t :: .separator :: rest => collect g (f.addWord g t [t, separatorText]) rest
  | f, .separator :: .word t :: rest => collect g (f.addWord g t [separatorText, t]) rest
  | f, .word t :: rest => collect g (f.addWord g t [t]) rest
  | f, .separator :: rest => collect g (f.spare [separatorText]) rest
  | f, .unknown t :: rest => collect g (f.spare [t]) rest
  | f, .switch s name attached :: rest =>
    match g.clusterOf s name attached with
    | .error fault => .error (.fault fault)
    | .ok k =>
      match k.attached, k.last.takesValue, rest with
      -- The value is the next piece, which has to be a word: a switch is never taken for a value.
      | none, true, .word value :: rest =>
        match takeFlags k.before f >>= k.last.take value with
        | .error stop => .error stop
        | .ok f => collect g f rest
      | none, true, _ => .error (.fault (.needsValue k.last))
      | attached, _, rest =>
        match takeFlags k.before f >>= k.last.take (attached.getD "") with
        | .error stop => .error stop
        | .ok f => collect g f rest

/-- The findings of a command line; arguments may be left over. -/
def findings (g : Grammar) (arguments : List String) : Except Stop Findings :=
  match g.pieces arguments with
  | .error fault => .error (.fault fault)
  | .ok ps =>
    match g.collect {} ps with
    | .error stop => .error stop
    | .ok f =>
      match g.word, f.word with
      | some w, none => .error (.fault (.missing w.1))
      | _, _ => .ok f

/-- The end of the program that a stop leads to. -/
def halt (g : Grammar) : Stop → Halt
  | .fault f => .ofFault g f
  | .help => .ofHelp g
  | .version => .ofVersion g

/-- The findings of a command line, or the end of the program that it leads to. -/
def parseKnown (g : Grammar) (arguments : List String) : Except Halt Findings :=
  (g.findings arguments).mapError g.halt

/-- The findings of a command line without arguments left over. -/
def parse (g : Grammar) (arguments : List String) : Except Halt Findings :=
  match g.parseKnown arguments with
  | .error h => .error h
  | .ok f => if f.extras.isEmpty then .ok f else .error (.ofFault g (.unrecognized f.extras))

end Grammar

end PipelineRuns.CommandLine
