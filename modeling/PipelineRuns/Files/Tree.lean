import PipelineRuns.Files.Path

/-!
# File trees

A `FileTree` is the part of a file system that a program can see: what stands at each place, and the
directory that relative paths start from. A place is the list of names from the root.
`FileTree.get?` is the view by which trees are compared; the entries are kept as a list whose first
entry for a place counts. A tree has files and directories only: there are no symbolic links, nobody
is denied anything, and a name can have any length. Where what the system refuses matters, it is a
parameter besides the tree (`Refusals`).

* `FileTree.locate` follows a path to a place: everything but its last name has to be a directory
  that exists;
* `FileTree.read?` and `FileTree.readText` read a file, `FileTree.write` writes one;
* `FileTree.makeDirectories` makes a directory and those above it that are missing.
-/

namespace PipelineRuns

/-- The names from the root to a file or directory. -/
abbrev Place := List String

/-- What can stand at a place. -/
inductive FileEntry where
  | directory
  | file (content : List UInt8)
  /-- A file that exists, but whose content the system fails to deliver. -/
  | damaged
  deriving DecidableEq, Repr

/-- What stands where, and where relative paths start. -/
structure FileTree where
  entries : List (Place × FileEntry) := []
  here : Place := []
  deriving DecidableEq, Repr

/-- What the system refuses: to look at a path, and to make a directory or write a file at one. It
is not asked about a path with a null character. -/
structure Refusals where
  look : FilePath → Option Refusal
  change : FilePath → Option Refusal
  meant : ∀ p, '\x00' ∈ p.text.toList → look p = none ∧ change p = none

/-- The system refuses nothing. -/
def Refusals.nothing : Refusals where
  look _ := none
  change _ := none
  meant := fun _ _ => ⟨rfl, rfl⟩

@[simp] theorem Refusals.look_nothing (p : FilePath) : nothing.look p = none := rfl

@[simp] theorem Refusals.change_nothing (p : FilePath) : nothing.change p = none := rfl

namespace FileTree

/-- What stands at a place; the root is a directory. -/
def get? (t : FileTree) (p : Place) : Option FileEntry :=
  if p.isEmpty then some .directory else t.entries.lookup p

/-- The tree with something put at a place. -/
def put (t : FileTree) (p : Place) (e : FileEntry) : FileTree :=
  { t with entries := (p, e) :: t.entries.filter (fun f => f.1 ≠ p) }

/-- The place that names lead to from a place. -/
def follow (t : FileTree) (spot : Place) : List String → Except FileFault.Cause Place
  | [] => .ok spot
  | name :: rest =>
    match t.get? spot with
    -- Two dots lead up from the place that was reached; above the root is the root.
    | some .directory => follow t (if name = ".." then spot.dropLast else spot ++ [name]) rest
    | some _ => .error .notDirectory
    | none => .error .missing

/-- The place that a path leads to; nothing need stand there. -/
def locate (t : FileTree) (p : FilePath) : Except FileFault.Cause Place :=
  t.follow (if p.isAbsolute then [] else t.here) p.parts

/-- What a path leads to. -/
def entryAt (t : FileTree) (p : FilePath) : Except FileFault.Cause FileEntry :=
  match t.locate p with
  | .error c => .error c
  | .ok place =>
    match t.get? place with
    | some e => .ok e
    | none => .error .missing

/-- Whether a path leads to anything. -/
def isPresent (t : FileTree) (p : FilePath) : Bool :=
  match t.entryAt p with
  | .ok _ => true
  | .error _ => false

/-- Whether a path leads to a directory. -/
def isDirectory (t : FileTree) (p : FilePath) : Bool :=
  match t.entryAt p with
  | .ok .directory => true
  | _ => false

/-- Whether a path leads to a file. -/
def isFile (t : FileTree) (p : FilePath) : Bool :=
  match t.entryAt p with
  | .ok (.file _) | .ok .damaged => true
  | _ => false

/-- The fault of an operation on a path. -/
def faultAt (p : FilePath) (c : FileFault.Cause) : FileFault :=
  ⟨c, some p.text⟩

/-- The content of the file that a path leads to. -/
def read? (t : FileTree) (p : FilePath) : Except FileFault (List UInt8) :=
  match t.entryAt p with
  | .error c => .error (faultAt p c)
  | .ok .directory => .error (faultAt p .isDirectory)
  | .ok .damaged => .error ⟨.inputOutput, none⟩
  | .ok (.file content) => .ok content

/-- The text that bytes hold in UTF-8. -/
def decode (content : List UInt8) : Except Failure String :=
  match String.fromUTF8? ⟨content.toArray⟩ with
  | some s => .ok s
  | none => .error .notUtf8

/-- The bytes of a text in UTF-8. -/
def encode (s : String) : List UInt8 :=
  s.toUTF8.toList

/-- The text of the file that a path leads to, with its line endings unified. A path with a null
character has no meaning. -/
def readText (t : FileTree) (p : FilePath) : Except Failure String :=
  if p.text.toList.contains '\x00' then .error .badValue
  else
    match t.read? p with
    | .error f => .error (.file f)
    | .ok content => (decode content).map (fun s => String.ofList (Text.unifyNewlines s.toList))

/-- The tree after a text is written to the file that a path leads to. -/
def write (t : FileTree) (p : FilePath) (s : String) : Except FileFault FileTree :=
  match t.locate p with
  | .error c => .error (faultAt p c)
  | .ok place =>
    match t.get? place.dropLast, t.get? place with
    | _, some .directory => .error (faultAt p .isDirectory)
    | some .directory, _ => .ok (t.put place (.file (encode s)))
    | some _, _ => .error (faultAt p .notDirectory)
    | none, _ => .error (faultAt p .missing)

/-- The tree after one directory is made. -/
def makeDirectory (t : FileTree) (p : FilePath) : Except FileFault FileTree :=
  match t.locate p with
  | .error c => .error (faultAt p c)
  | .ok place =>
    match t.get? place with
    | some _ => .error (faultAt p .exists)
    | none => .ok (t.put place .directory)

/-- The tree after a directory is made, unless it exists. -/
def ensureDirectory (t : FileTree) (p : FilePath) : Except FileFault FileTree :=
  match t.makeDirectory p with
  | .ok t' => .ok t'
  | .error f => if t.isDirectory p then .ok t else .error f

/-- The tree after the directory of the first `n` parts of a path is made, with those above it that
are missing. -/
def makeDirectoriesUpTo (t : FileTree) (p : FilePath) : Nat → Except FileFault FileTree
  | 0 => t.ensureDirectory ⟨p.root, []⟩
  | n + 1 =>
    let q : FilePath := ⟨p.root, p.parts.take (n + 1)⟩
    match t.makeDirectory q with
    | .ok t' => .ok t'
    | .error f =>
      -- Directories above are made only where one is missing, and then the last one is tried again.
      if f.cause = .missing then do
        let t ← makeDirectoriesUpTo t p n
        t.ensureDirectory q
      else if t.isDirectory q then .ok t
      else .error f

/-- The tree after a directory is made, with those above it that are missing. -/
def makeDirectories (t : FileTree) (p : FilePath) : Except FileFault FileTree :=
  t.makeDirectoriesUpTo p p.parts.length

/-- Writing to a place is seen there. -/
@[simp] theorem get?_put_self (t : FileTree) {p : Place} (h : p ≠ []) (e : FileEntry) :
    (t.put p e).get? p = some e := by
  simp [get?, put, h]

end FileTree

end PipelineRuns
