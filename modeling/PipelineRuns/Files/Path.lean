import PipelineRuns.Environment
import PipelineRuns.Failure
import PipelineRuns.Text.Blank
import PipelineRuns.Text.Line

/-!
# Paths

A `FilePath` is a path in normal form: its root, and its parts without empty ones and single dots.
Two dots are a part like any other, since what they mean depends on the file system.
`FilePath.ofText` reads a path, `FilePath.text` writes it, and `FilePath.join` continues one path by
another.

`FilePath.expandUser` puts a home directory in place of a tilde. `Homes` is what the machine knows
of its users: the homes by their names, and that of the user who runs the program, which counts
where `HOME` is not set.
-/

namespace PipelineRuns

/-- A path: its root (empty for a relative path, else one or two slashes) and its parts. -/
structure FilePath where
  root : String
  parts : List String
  deriving DecidableEq, Repr, Inhabited

/-- The home directories of the users of a machine. -/
structure Homes where
  /-- That of the user who runs the program; none where the machine does not know the user. -/
  own : Option String := some "/"
  users : List (String × String) := []
  deriving DecidableEq, Repr

namespace Homes

/-- The home of the user who runs the program: that of the environment, else the one that the
machine knows. -/
def ofSelf (homes : Homes) (env : Environment) : Except Failure String :=
  match env.get? "HOME" with
  | some home => .ok home
  | none =>
    match homes.own with
    | some home => .ok home
    | none => .error .unknownHome

/-- The home of the user with a name; a name with a null character has no meaning. -/
def ofUser (homes : Homes) (name : String) : Except Failure String :=
  if name.toList.contains '\x00' then .error .badValue
  else
    match homes.users.lookup name with
    | some home => .ok home
    | none => .error .unknownHome

/-- The home that a tilde means with a name behind it; without one it is that of the user who runs
the program. -/
def ofName (homes : Homes) (env : Environment) (name : List Char) : Except Failure String :=
  if name.isEmpty then homes.ofSelf env else homes.ofUser (String.ofList name)

end Homes

namespace FilePath

/-- Whether a piece between slashes is a part of the path. -/
def isPart (s : String) : Bool := s ≠ "" && s ≠ "."

/-- The root of a path: two slashes stay two, three or more are one. -/
def rootOf (s : List Char) : String :=
  match s.takeWhile (· = '/') with
  | [] => ""
  | ['/', '/'] => "//"
  | _ => "/"

/-- The path that a text writes. -/
def ofText (s : String) : FilePath :=
  ⟨rootOf s.toList, (Text.split '/' s).filter isPart⟩

/-- A path as text; the empty path is a dot. -/
def text (p : FilePath) : String :=
  if p.root = "" && p.parts.isEmpty then "." else p.root ++ String.intercalate "/" p.parts

/-- Whether a path starts at the root of the file system. -/
def isAbsolute (p : FilePath) : Bool := p.root ≠ ""

/-- The path `q` as seen from `p`. -/
def join (p q : FilePath) : FilePath :=
  if q.isAbsolute then q else ⟨p.root, p.parts ++ q.parts⟩

/-- The path without its last part. -/
def parent (p : FilePath) : FilePath :=
  { p with parts := p.parts.dropLast }

/-- The last part; empty where there is none. -/
def name (p : FilePath) : String :=
  p.parts.getLastD ""

/-- A path below another one. -/
def child (p : FilePath) (part : String) : FilePath :=
  p.join (ofText part)

/-- The text of a home directory without slashes at its end. -/
def homeText (home : String) : String :=
  let kept := Text.dropSlashes home.toList
  if kept.isEmpty then "/" else String.ofList kept

/-- The path with the home directory in place of a tilde at its start, that of the user who is named
behind the tilde if one is. -/
def expandUser (homes : Homes) (env : Environment) (p : FilePath) : Except Failure FilePath :=
  match p.parts with
  | first :: rest =>
    if p.isAbsolute then .ok p
    else
      match first.toList with
      | '~' :: name => do
        let home ← homes.ofName env name
        -- A home that starts with a tilde itself counts as one that is not known.
        if (homeText home).toList.head? = some '~' then throw .unknownHome
        else
          let h := ofText (homeText home)
          return ⟨h.root, h.parts ++ rest⟩
      | _ => .ok p
  | [] => .ok p

@[simp] theorem join_of_isAbsolute {p q : FilePath} (h : q.isAbsolute = true) : p.join q = q := by
  simp [join, h]

end FilePath

end PipelineRuns
