import PipelineRuns.Base64
import PipelineRuns.Failure
import PipelineRuns.Text.Case
import PipelineRuns.Value.Basic
import PipelineRuns.Yaml.Node

/-!
# Reading YAML

`Yaml.parseAll` reads the values of all documents of a text and `Yaml.parse` that of the only one.
Between the nodes of a document and its value stand three steps: merge keys are replaced by the
entries that they name (`Node.merged`), scalars get their values (`Scalar.value`), and keys that are
the same are joined.

Aliases are copies here. So a collection that is part of itself has no value (`Failure.leftOut`),
nor has a float that is not a number and can be told from its copies (`Scalar.computed`), and the
mark `=` that is a key in one place stays without a value where an alias names it in another.

A node can be without a value, for more than one reason. `Node.faults` lists all reasons with the
depth at which they stand, and the shallowest one counts; `Node.toValue` is the value where there is
none.
-/

namespace PipelineRuns.Yaml

/-! ### The values of scalars -/

namespace Scalar

/-- The letter that marks a base after a zero. -/
def markOf (base : Nat) : Option Char :=
  [(2, 'b'), (8, 'o'), (16, 'x')].lookup base

/-- Digits without the mark of their base, if they have it. -/
def withoutMark (base : Nat) (ds : List Char) : List Char :=
  match ds with
  | '0' :: mark :: rest => if markOf base = some mark.toLower then rest else ds
  | _ => ds

/-- The integer written by digits in a base, in any script, with an optional sign and the mark of
the base. -/
def integer? (base : Nat) (s : List Char) : Option Int :=
  let (negative, ds) := match s with
    | '-' :: rest => (true, withoutMark base rest)
    | '+' :: rest => (false, withoutMark base rest)
    | _ => (false, withoutMark base s)
  let digit? := fun c =>
    match (Text.digitValue? c).or (hexValue? c) with
    | some d => if d < base then some d else none
    | none => none
  if ds.isEmpty || (base = 10 && Text.maxDigits < ds.length) then none
  else (ds.mapM digit?).map (fun vs =>
    let n : Int := (Text.ofDigits base 0 vs : Nat)
    if negative then -n else n)

/-- The number that groups of base 60 write. -/
def sexagesimal (groups : List Int) : Int :=
  groups.foldl (fun acc g => acc * 60 + g) 0

/-- The value of an integer; underscores do not count. -/
def intValue (s : List Char) : Except Failure Value :=
  match s.filter (· ≠ '_') with
  | [] => .error .emptySequence
  | c :: rest =>
    let negative := c = '-'
    let body := if c = '-' || c = '+' then rest else c :: rest
    let signed := fun (n : Int) => Value.int (if negative then -n else n)
    let number := fun (base : Nat) (ds : List Char) =>
      match integer? base (Text.trim ds) with
      | some n => .ok (signed n)
      | none => .error .badValue
    -- A leading zero marks base 8 by itself, and the mark of another base comes after it.
    match body with
    | [] => .error .emptySequence
    | ['0'] => .ok (.int 0)
    | '0' :: 'b' :: ds => number 2 ds
    | '0' :: 'x' :: ds => number 16 ds
    | '0' :: _ => number 8 body
    | _ =>
      if body.contains ':' then
        match (Text.splitAt ':' body).mapM (fun g => integer? 10 (Text.trim g)) with
        | some groups => .ok (signed (sexagesimal groups))
        | none => .error .badValue
      else number 10 body

/-- The decimal with an optional fraction and exponent that a text writes. -/
def decimal? (s : List Char) : Option Float :=
  let whole := s.takeWhile Char.isDigit
  let (fraction, rest) := match s.dropWhile Char.isDigit with
    | '.' :: more => (more.takeWhile Char.isDigit, more.dropWhile Char.isDigit)
    | more => ([], more)
  let exponent : Option Int := match rest with
    | [] => some 0
    | 'e' :: '-' :: ds => (Text.asciiNat? ds).map (fun n => -(n : Int))
    | 'e' :: '+' :: ds => (Text.asciiNat? ds).map (fun n => (n : Int))
    | 'e' :: ds => (Text.asciiNat? ds).map (fun n => (n : Int))
    | _ => none
  match Text.asciiNat? (whole ++ fraction), exponent with
  | some n, some e => some (Number.ofDecimal n (e - (fraction.length : Int)))
  | _, _ => none

/-- A decimal digit of any script as one of ASCII. -/
def asciiDigit (c : Char) : Char :=
  match Text.digitValue? c with
  | some d => Char.ofNat ('0'.toNat + d)
  | none => c

/-- The floating point number that a text in lower case writes, with digits of any script. -/
def number? (s : List Char) : Option Float :=
  let s := (Text.trim s).map asciiDigit
  let (negative, body) := match s with
    | '-' :: rest => (true, rest)
    | '+' :: rest => (false, rest)
    | _ => (false, s)
  let magnitude : Option Float :=
    if ["inf", "infinity"].contains (String.ofList body) then some (1.0 / 0.0)
    else if String.ofList body = "nan" then some (0.0 / 0.0)
    else decimal? body
  magnitude.map (fun x => if negative then -x else x)

/-- From here on a natural number is nearest to no floating point number but infinity. -/
def floatLimit : Nat := Nat.pow 2 1024 - Nat.pow 2 970

/-- The sum of numbers times the powers of 60, from the last one on; nothing where there is no
floating point number for a power. -/
def weighted : Float → Nat → List Float → Option Float
  | acc, _, [] => some acc
  | acc, base, x :: rest =>
    if floatLimit ≤ base then none
    else weighted (acc + x * Number.ofDecimal base 0) (base * 60) rest

/-- The value of a float that was worked out. One that is not a number would be a thing of its own
each time, unlike the one that is written `.nan`, and has no counterpart here. -/
def computed (x : Float) : Except Failure Value :=
  if x.isNaN then .error .leftOut else .ok (.float x)

/-- The value of a floating point number; underscores do not count. -/
def floatValue (s : List Char) : Except Failure Value :=
  match (s.filter (· ≠ '_')).map Char.toLower with
  | [] => .error .emptySequence
  | c :: rest =>
    let negative := c = '-'
    let body := if c = '-' || c = '+' then rest else c :: rest
    let signed := fun (x : Float) => computed (if negative then -1.0 * x else x)
    if String.ofList body = ".inf" then signed (1.0 / 0.0)
    else if String.ofList body = ".nan" then .ok (.float (0.0 / 0.0))
    else if body.contains ':' then
      match (Text.splitAt ':' body).mapM number? with
      | some groups =>
        match weighted 0.0 1 groups.reverse with
        | some x => signed x
        | none => .error .outOfRange
      | none => .error .badValue
    else
      match number? body with
      | some x => signed x
      | none => .error .badValue

/-- The offset of a zone in minutes; less than a day. -/
def zoneOffset? : Option (Bool × List Char × List Char) → Option Int
  | none => some 0
  | some (negative, hours, minutes) =>
    let total := (Text.asciiNat? hours).getD 0 * 60 + (Text.asciiNat? minutes).getD 0
    if 1440 ≤ total then none else some (if negative then -(total : Int) else (total : Int))

/-- The date or timestamp that a text writes; a fraction is cut to six digits. -/
def timestampValue (s : List Char) : Except Failure Value :=
  let number := fun ds => (Text.asciiNat? ds).getD 0
  match Plain.stamp? (Plain.withoutFinalBreak s) with
  | none => .error .notMapping
  | some t =>
    match t.time with
    | none =>
      match Civil.ofFields? (number t.year) (number t.month) (number t.day) with
      | some d => .ok (.date d)
      | none => .error .badValue
    | some (hour, minute, second) =>
      let time : TimeOfDay := ⟨number hour, number minute, number second,
        number ((t.fraction ++ List.replicate 6 '0').take 6)⟩
      let offset : Option (Option Int) := match t.zone with
        | none => some none
        | some z => (zoneOffset? z).map some
      match Civil.ofFields? (number t.year) (number t.month) (number t.day), offset with
      | some d, some o =>
        if time.hour < 24 && time.minute < 60 && time.second < 60 then
          .ok (.timestamp (Moment.wallOfDay d.dayNumber + time.micros) o)
        else .error .badValue
      | _, _ => .error .badValue

/-- The truth value that a text names. -/
def boolValue (s : List Char) : Except Failure Value :=
  let word := String.ofList (s.map Char.toLower)
  if ["yes", "true", "on"].contains word then .ok (.bool true)
  else if ["no", "false", "off"].contains word then .ok (.bool false)
  else .error .unknownKey

/-- The bytes that a text writes in Base64. -/
def binaryValue (s : List Char) : Except Failure Value :=
  if s.any (fun c => 0x7f < c.toNat) then .error .notYaml
  else
    match Base64.decodeLoosely s with
    | .ok content => .ok (.bytes content)
    | .error _ => .error .notYaml

/-- The value of a scalar with a tag. -/
def value (tag : Tag) (text : String) : Except Failure Value :=
  match tag with
  | .null => .ok .null
  | .bool => boolValue text.toList
  | .int => intValue text.toList
  | .float => floatValue text.toList
  | .binary => binaryValue text.toList
  | .timestamp => timestampValue text.toList
  | .text => .ok (.text text)
  | _ => .error .notYaml

end Scalar

/-! ### Merge keys -/

namespace Node

/-- Whether a node has a tag. -/
def hasTag (t : Tag) : Node → Bool
  | .scalar t' _ | .sequence t' _ | .mapping t' _ => t' = t
  | .loop => false

/-- Whether a node is the key of a merge. -/
def isMergeKey (n : Node) : Bool := n.hasTag .merge

/-- A key of which the mark `=` is a text. -/
def plainKey : Node → Node
  | .scalar .value s => .scalar .text s
  | .sequence .value items => .sequence .text items
  | .mapping .value entries => .mapping .text entries
  | n => n

/-- Whether a tag makes a mapping node a mapping or a set. -/
def takesEntries : Tag → Bool
  | .mapping | .set => true
  | _ => false

/-- Whether a tag makes a sequence node a list of pairs. -/
def takesPairs : Tag → Bool
  | .pairs | .orderedPairs => true
  | _ => false

/-- The entries of a mapping whose merges have no meaning: one that has no value. -/
def noEntries : List (Node × Node) := [(.mapping .other [], .empty)]

mutual

/-- A node without merges. A mapping that is given another tag is left as it is. -/
def merged : Node → Node
  | .mapping t entries =>
    if takesEntries t then
      match mergedPart entries with
      -- Own entries come last, since the later one of two with one key counts.
      | some named => .mapping t (named ++ ownPart entries)
      | none => .mapping t noEntries
    else .mapping t entries
  | .sequence t items => .sequence t (if takesPairs t then mergedPairs items else mergedItems items)
  | n => n

/-- Items without merges. -/
def mergedItems : List Node → List Node
  | [] => []
  | n :: rest => merged n :: mergedItems rest

/-- Items that are to be pairs, of keys and values without merges. -/
def mergedPairs : List Node → List Node
  | [] => []
  | .mapping t [(k, v)] :: rest => .mapping t [(merged k, merged v)] :: mergedPairs rest
  | n :: rest => n :: mergedPairs rest

/-- The entries that stand in a mapping besides its merges. -/
def ownPart : List (Node × Node) → List (Node × Node)
  | [] => []
  | (k, v) :: rest =>
    if k.isMergeKey then ownPart rest else ((merged k).plainKey, merged v) :: ownPart rest

/-- The entries that the merges of a mapping name; `none` for a merge of something else. -/
def mergedPart : List (Node × Node) → Option (List (Node × Node))
  | [] => some []
  | (k, v) :: rest =>
    if k.isMergeKey then do return (← mergedEntries v) ++ (← mergedPart rest) else mergedPart rest

/-- The entries of the mappings that a merge names, whatever tags these have. -/
def mergedEntries : Node → Option (List (Node × Node))
  | .mapping _ entries => do return (← mergedPart entries) ++ ownPart entries
  | .sequence _ items => mergedSequence items
  | .scalar _ _ => none
  -- What a merge of a node into itself leads to is not said, so the entries have no value.
  | .loop => some [(.empty, .loop)]

/-- The entries of several mappings; the first one counts most, so it comes last. -/
def mergedSequence : List Node → Option (List (Node × Node))
  | [] => some []
  | .mapping _ entries :: rest => do
    return (← mergedSequence rest) ++ ((← mergedPart entries) ++ ownPart entries)
  | .loop :: rest => do return (← mergedSequence rest) ++ [(.empty, .loop)]
  | _ :: _ => none

end

/-! ### The value of a node -/

/-- Whether a tag asks for a collection. -/
def isCollection : Tag → Bool
  | .list | .mapping | .set | .pairs | .orderedPairs => true
  | _ => false

/-- Whether a node can be the key of an entry. -/
def canBeKey : Node → Bool
  | .scalar t _ | .sequence t _ | .mapping t _ => !isCollection t
  | .loop => false

mutual

/-- The text of a node that is to be a scalar; a mapping names it under the mark `=`. -/
def scalarText : Node → Except Failure String
  | .scalar _ s => .ok s
  | .sequence _ _ => .error .notYaml
  | .mapping _ entries => markedText entries
  | .loop => .error .leftOut

/-- The text under the first mark `=`. -/
def markedText : List (Node × Node) → Except Failure String
  | [] => .error .notYaml
  | (k, v) :: rest => if k.hasTag .value then scalarText v else markedText rest

end

/-- The value of a mapping that is to be a scalar. A timestamp is not looked for in its text. -/
def markedValue (t : Tag) (entries : List (Node × Node)) : Except Failure Value := do
  let s ← markedText entries
  if t = .timestamp then .error .wrongType else Scalar.value t s

/-- The reason why there is no value, at a depth. -/
def faultOf (depth : Nat) : Except Failure Value → List (Nat × Failure)
  | .ok _ => []
  | .error f => [(depth, f)]

mutual

/-- The reasons why a node has no value, each with its depth below `depth`. A collection is looked
into after all that stands beside it, so what is wrong in it lies deeper. -/
def faults (depth : Nat) : Node → List (Nat × Failure)
  | .scalar t s => faultOf (if isCollection t then depth + 1 else depth) (Scalar.value t s)
  | .sequence t items =>
    match t with
    | .list => itemFaults (depth + 1) items
    | .pairs | .orderedPairs => pairFaults (depth + 1) items
    | .mapping | .set => [(depth + 1, .notYaml)]
    | _ => [(depth, .notYaml)]
  | .mapping t entries =>
    match t with
    | .mapping | .set => entryFaults (depth + 1) entries
    | .list | .pairs | .orderedPairs => [(depth + 1, .notYaml)]
    | _ => faultOf depth (markedValue t entries)
  | .loop => [(depth, .leftOut)]

/-- The reasons why items have no value. -/
def itemFaults (depth : Nat) : List Node → List (Nat × Failure)
  | [] => []
  | n :: rest => faults depth n ++ itemFaults depth rest

/-- The reasons why items are no pairs of values. -/
def pairFaults (depth : Nat) : List Node → List (Nat × Failure)
  | [] => []
  | n :: rest =>
    (match n with
      | .mapping _ [(k, v)] => faults depth k ++ faults depth v
      | .loop => [(depth, .leftOut)]
      | _ => [(depth, .notYaml)]) ++ pairFaults depth rest

/-- The reasons why entries have no value; a collection is no key. -/
def entryFaults (depth : Nat) : List (Node × Node) → List (Nat × Failure)
  | [] => []
  | (k, v) :: rest =>
    faults depth k ++ (if canBeKey k then [] else [(depth, .notYaml)]) ++ faults depth v ++
      entryFaults depth rest

end

/-- The value that was found. -/
def found : Except Failure Value → Value
  | .ok v => v
  | .error _ => .null

mutual

/-- The value of a node that has one. -/
def toValue : Node → Value
  | .scalar t s => found (Scalar.value t s)
  | .sequence t items =>
    match t with
    | .pairs | .orderedPairs => .list (toPairs items)
    | _ => .list (toValues items)
  | .mapping t entries =>
    match t with
    | .mapping => .mapping (toEntries [] entries)
    | .set => .set ((toEntries [] entries).map Prod.fst)
    | _ => found (markedValue t entries)
  | .loop => .null

/-- The values of items. -/
def toValues : List Node → List Value
  | [] => []
  | n :: rest => toValue n :: toValues rest

/-- The pairs of items. -/
def toPairs : List Node → List Value
  | [] => []
  | n :: rest =>
    (match n with
      | .mapping _ [(k, v)] => .pair (toValue k) (toValue v)
      | _ => .null) :: toPairs rest

/-- The mapping of entries, put into the one before them. -/
def toEntries (before : Mapping) : List (Node × Node) → Mapping
  | [] => before
  | (k, v) :: rest => toEntries (before.insert (toValue k) (toValue v)) rest

end

/-- The least depth in a list. -/
def shallowest (fs : List (Nat × Failure)) : Option Failure :=
  match fs with
  | [] => none
  | f :: rest => some (rest.foldl (fun best g => if g.1 < best.1 then g else best) f).2

/-- The value of a node, or the reason why it has none that stands first at the least depth. A value
that is left out is no such reason by itself. -/
def read (n : Node) : Except Failure Value :=
  let m := n.merged
  let fs := faults 0 m
  -- A value that is left out does not hide a fault that is certain.
  match shallowest (fs.filter (fun f => f.2 ≠ .leftOut)) with
  | some f => .error f
  | none => if fs.isEmpty then .ok (toValue m) else .error .leftOut

end Node

/-! ### Streams -/

/-- The characters that a YAML text may hold. -/
def isReadable (c : Char) : Bool :=
  let n := c.toNat
  n = 0x09 || n = 0x0a || n = 0x0d || (0x20 ≤ n && n ≤ 0x7e) || n = 0x85 ||
    (0xa0 ≤ n && n ≤ 0xd7ff) || (0xe000 ≤ n && n ≤ 0xfffd) || (0x10000 ≤ n && n ≤ 0x10ffff)

/-- What a message says of a text that is not YAML. -/
def faultText : String := "<yaml error>"

/-- The failure that a fault of a text is. -/
def Fault.toFailure : Fault → Failure
  | .notYaml => .notYaml
  | .badNumber => .badValue
  | .outOfRange => .outOfRange
  | .leftOut => .leftOut

/-- A result whose fault is a failure. -/
def lift {α : Type} : Except Fault α → Except Failure α
  | .ok a => .ok a
  | .error f => .error f.toFailure

/-- The values of the documents from here on. -/
def documents : Nat → Bool → Reader → Except Failure (List Value)
  | 0, _, _ => .error .notYaml
  | fuel + 1, first, r => do
    let (n?, r) ← lift (r.document? first)
    match n? with
    | none => return []
    | some n =>
      match n.read with
      | .ok v => return v :: (← documents fuel false r)
      -- The documents after one that is left out may still be no YAML.
      | .error .leftOut => documents fuel false r >>= fun _ => .error .leftOut
      | .error f => .error f

/-- The values of all documents of a text. -/
def parseAll (text : String) : Except Failure (List Value) :=
  let cs := text.toList
  if cs.all isReadable then
    let tokens := Token.scan cs
    documents (tokens.length + 1) true { tokens }
  else .error .notYaml

/-- The value of the only document of a text; null for a text without one. -/
def parse (text : String) : Except Failure Value :=
  let cs := text.toList
  if cs.all isReadable then do
    let (n?, r) ← lift (Reader.document? true { tokens := Token.scan cs })
    match n? with
    | none => return .null
    | some n =>
      -- A second document is refused as soon as it begins, whatever it holds.
      let (second, _) ← lift (r.start false)
      if second ≠ .none then .error .notYaml else n.read
  else .error .notYaml

end PipelineRuns.Yaml
