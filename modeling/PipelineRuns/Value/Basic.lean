import PipelineRuns.Decimal.Number
import PipelineRuns.Time.Moment

/-!
# Values

`Value` is what a YAML or JSON document holds once it is read: scalars, lists and mappings, and the
few further kinds that YAML knows (byte strings, dates, timestamps, sets and pairs). A mapping keeps
its entries in the order in which their keys first appeared.

* `Value.same` is the equality by which names are looked up: numbers are equal when their values
  are, whatever their kind. `Value.alike` is the one by which keys and members are told apart; it
  differs for the float that is not a number, which equals nothing, but is one and the same thing
  wherever it stands;
* `Mapping.get?` looks up the entry under a text key and `Mapping.insert` sets an entry;
* `Value.isTruthy` says whether a value counts as given: not null, false, zero or empty.
-/

namespace PipelineRuns

/-- A value read from a document. A timestamp without an offset is a wall reading of an unknown
place. -/
inductive Value where
  | null
  | bool (b : Bool)
  | int (n : Int)
  | float (x : Float)
  | text (s : String)
  | bytes (content : List UInt8)
  | date (d : Civil)
  | timestamp (wall : Int) (offset : Option Int)
  | pair (first second : Value)
  | list (items : List Value)
  | set (members : List Value)
  | mapping (entries : List (Value × Value))
  deriving Inhabited

/-- The entries of a mapping, in order; no two keys are alike. -/
abbrev Mapping := List (Value × Value)

/-- The integer that a floating point number equals, if it equals one. -/
def Number.integer? (x : Float) : Option Int :=
  if x.isNaN || x.isInf then none
  else
    let bits := x.toBits.toNat
    let parts := Decimal.Binary.ofBits (bits % Nat.pow 2 63)
    let scaled := parts.mantissa * Nat.pow 2 parts.exponent.toNat
    let divisor := Nat.pow 2 (-parts.exponent).toNat
    if scaled % divisor = 0 then
      some (if Nat.pow 2 63 ≤ bits then -((scaled / divisor : Nat) : Int)
        else (scaled / divisor : Nat))
    else none

namespace Value

/-- The integer that a truth value counts as. -/
def ofBool (b : Bool) : Int :=
  if b then 1 else 0

/-- Whether a value is the number `n`. -/
def isInt (n : Int) : Value → Bool
  | .bool b => n = ofBool b
  | .int m => n = m
  | .float x => Number.integer? x = some n
  | _ => false

/-- Whether a value is the number `x`. -/
def isFloat (x : Float) : Value → Bool
  | .bool b => Number.integer? x = some (ofBool b)
  | .int m => Number.integer? x = some m
  | .float y => x == y
  | _ => false

/-- Whether a value is the text `s`. -/
def isText (s : String) : Value → Bool
  | .text t => t = s
  | _ => false

@[simp] theorem isText_text (s t : String) : isText s (.text t) = decide (t = s) := rfl

/-- Whether two timestamps are equal: by their instants if both have an offset, by their walls if
neither has. -/
def sameTimestamp (wall : Int) (offset : Option Int) : Value → Bool
  | .timestamp wall' offset' =>
    match offset, offset' with
    | none, none => wall = wall'
    | some o, some o' => Moment.instant ⟨wall, o⟩ = Moment.instant ⟨wall', o'⟩
    | _, _ => false
  | _ => false

/-- Whether both values are the floating point number that is not a number. -/
def bothNaN : Value → Value → Bool
  | .float x, .float y => x.isNaN && y.isNaN
  | _, _ => false

mutual

/-- Equality of values. Mappings and sets are equal when they have the same entries in any order. -/
def same : Value → Value → Bool
  | .null, .null => true
  | .bool b, other => isInt (ofBool b) other
  | .int n, other => isInt n other
  | .float x, other => isFloat x other
  | .text s, other => isText s other
  | .bytes a, .bytes b => a = b
  | .date a, .date b => a = b
  | .timestamp w o, other => sameTimestamp w o other
  | .pair a b, .pair a' b' => (bothNaN a a' || same a a') && (bothNaN b b' || same b b')
  | .list xs, .list ys => sameList xs ys
  | .set xs, .set ys => xs.length = ys.length && sameMembers xs ys
  | .mapping xs, .mapping ys => xs.length = ys.length && sameEntries xs ys
  | _, _ => false

/-- Equality of lists, item by item. Two items are compared only if they are not one thing. -/
def sameList : List Value → List Value → Bool
  | [], [] => true
  | x :: xs, y :: ys => (bothNaN x y || same x y) && sameList xs ys
  | _, _ => false

/-- Whether every member of the first list is in the second. -/
def sameMembers : List Value → List Value → Bool
  | [], _ => true
  | x :: xs, ys => ys.any (fun y => bothNaN x y || same x y) && sameMembers xs ys

/-- Whether every entry of the first list has an equal one in the second. -/
def sameEntries : List (Value × Value) → List (Value × Value) → Bool
  | [], _ => true
  | (k, v) :: xs, ys =>
    (match ys.find? (fun e => bothNaN k e.1 || same k e.1) with
      | some e => bothNaN v e.2 || same v e.2
      | none => false) && sameEntries xs ys

end

/-- Whether two values are one member of a collection or one key. -/
def alike (v w : Value) : Bool :=
  bothNaN v w || same v w

theorem alike_text (s t : String) : alike (.text s) (.text t) = decide (t = s) := by
  rw [alike, same, isText_text]
  rfl

/-- Whether a value counts as given: it is not null, false, zero or empty. -/
def isTruthy : Value → Bool
  | .null => false
  | .bool b => b
  | .int n => n ≠ 0
  | .float x => !(x == 0.0)
  | .text s => s ≠ ""
  | .bytes content => !content.isEmpty
  | .list items => !items.isEmpty
  | .set members => !members.isEmpty
  | .mapping entries => !entries.isEmpty
  | _ => true

/-- Whether a value is null. -/
def isNull : Value → Bool
  | .null => true
  | _ => false

/-- The items of a list; no items for anything else. -/
def items : Value → List Value
  | .list xs => xs
  | _ => []

/-- The entries of a mapping, if the value is one. -/
def entries? : Value → Option Mapping
  | .mapping m => some m
  | _ => none

/-- The text, if the value is one. -/
def text? : Value → Option String
  | .text s => some s
  | _ => none

/-- Whether a value can be the key of an entry: collections that can grow cannot. -/
def canBeKey : Value → Bool
  | .list _ | .set _ | .mapping _ => false
  | _ => true

/-- Text or null. -/
def ofText? : Option String → Value
  | some s => .text s
  | none => .null

end Value

namespace Mapping

/-- The value under a text key. -/
def get? : Mapping → String → Option Value
  | [], _ => none
  | (k, v) :: rest, key => if k.isText key then some v else get? rest key

/-- The value under a text key, null when there is none. -/
def get (m : Mapping) (key : String) : Value :=
  (get? m key).getD .null

/-- Whether there is an entry under a text key. -/
def contains (m : Mapping) (key : String) : Bool :=
  (get? m key).isSome

/-- The mapping with the value `v` under `k`: in the place of the entry with the same key, if there
is one, else at the end. -/
def insert : Mapping → Value → Value → Mapping
  | [], k, v => [(k, v)]
  | (k', v') :: rest, k, v => if k'.alike k then (k', v) :: rest else (k', v') :: insert rest k v

/-- The mapping of a list of entries, of which later ones replace earlier ones. -/
def ofEntries (entries : List (Value × Value)) : Mapping :=
  entries.foldl (fun m e => insert m e.1 e.2) []

@[simp] theorem get?_nil (key : String) : get? [] key = none := rfl

@[simp] theorem get?_cons (k v : Value) (rest : Mapping) (key : String) :
    get? ((k, v) :: rest) key = if k.isText key then some v else get? rest key := rfl

end Mapping

/-- A mapping with text keys. -/
def Value.object (entries : List (String × Value)) : Value :=
  .mapping (entries.map (fun e => (.text e.1, e.2)))

end PipelineRuns
