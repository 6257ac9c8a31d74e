import PipelineRuns.Program
import Std.Time

/-!
# The executable

`main` takes a picture of the machine, runs the program on it, and does what the outcome says: it
prints, writes the files that changed and ends with the exit code. The picture holds the environment
and those files that the program can look at (`pathsOfSettings`, `pathsOfCommand`).

A generation asks questions. It is run again for each further line of the standard input, and what
was printed for the lines before is the beginning of what is printed next.

Requests to a cluster are not sent from here; the top directory of a work tree is the one with a
`.git` entry.
-/

namespace PipelineRuns.Main

/-! ### The picture of the machine -/

/-- The variables in the environment of the process. -/
def environment : IO Environment := do
  let raw ← (IO.FS.readBinFile "/proc/self/environ").toBaseIO
  let text := match raw with
    | .ok bytes => (String.fromUTF8? bytes).getD ""
    | .error _ => ""
  return (Text.split '\x00' text).filterMap (Text.cut? '=')

/-- What stands at a place. -/
def entryAt? (place : Place) : IO (Option FileEntry) := do
  let path := (← IO.currentDir) / ("/" ++ String.intercalate "/" place)
  if ← path.isDir then return some .directory
  else if ← path.pathExists then
    match ← (IO.FS.readBinFile path).toBaseIO with
    | .ok content => return some (.file content.toList)
    | .error _ => return some .damaged
  else return none

/-- The picture with a place and everything above it. -/
def addPlace (t : FileTree) (place : Place) : IO FileTree :=
  (List.range place.length).foldlM (fun t n => do
    let p := place.take (n + 1)
    match ← entryAt? p with
    | some e => return t.put p e
    | none => return t) t

/-- The picture with the places that paths lead to. -/
def addPaths (host : Host) (paths : List FilePath) : IO Host := do
  let files ← paths.foldlM (fun t p =>
    addPlace t (if p.isAbsolute then p.parts else t.here ++ p.parts)) host.files
  return { host with files := files }

/-- The paths that settings lead to. -/
def pathsOfSettings (host : Host) (settings : Settings) : List FilePath :=
  let kubeconfig := match Kubeconfig.pathOf host settings.kube.kubeconfig with
    | .ok p => [p]
    | .error _ => []
  let tokens := [settings.kube.tokenFile.getD "", host.environment.value "KUBE_TOKEN_FILE"]
  kubeconfig ++ (tokens.filter (· ≠ "")).map FilePath.ofText ++
    [host.namespaceFile, host.tokenFile, host.bundleFile]

/-- The token file that a kubeconfig file names. -/
def tokenFileOf (host : Host) (path : FilePath) : List FilePath :=
  let named : Except Failure Value := do
    match ← Yaml.parse (← host.files.readText path) with
    | .mapping data =>
      return (← Kubeconfig.select data (Mapping.get data "current-context")).user.get "tokenFile"
    | _ => return .null
  match named with
  | .ok (.text file) => [path.parent.join (FilePath.ofText file)]
  | _ => []

/-- The paths that a command looks at besides. -/
def pathsOfCommand (git : GitReply) (i : Invocation) : List FilePath :=
  match i.command, git with
  | .describe, _ =>
    match Describe.Options.parse i.rest with
    | .ok { file := .text path, .. } => [FilePath.ofText path]
    | _ => []
  | .generate, .done 0 top _ =>
    match Checkout.said top with
    | .ok top => Starter.events.map (fun e => Starter.path (FilePath.ofText (Text.strip top)) e.1)
    | .error _ => []
  | .generate, _ => []

/-- The work tree around a place: the nearest directory with a `.git` entry. -/
def workTree (place : Place) : IO GitReply := do
  let tops := (List.range (place.length + 1)).reverse.map place.take
  match ← tops.findM? (fun p => return (← entryAt? (p ++ [".git"])).isSome) with
  | some p => return .done 0 (FileTree.encode ("/" ++ String.intercalate "/" p ++ "\n")) []
  | none =>
    return .done 128 []
      (FileTree.encode "fatal: not a git repository (or any of the parent directories): .git\n")

/-- The picture that a command line needs. -/
def picture (git : GitReply) (host : Host) (arguments : List String) : IO Host := do
  match Invocation.parse arguments with
  | .error _ => return host
  | .ok i =>
    let host ← addPaths host (i.configPath :: pathsOfCommand git i)
    match (Settings.load host i.configPath).settings with
    | .error _ => return host
    | .ok settings =>
      let paths := pathsOfSettings host settings
      let host ← addPaths host paths
      addPaths host (paths.flatMap (tokenFileOf host))

/-- The current time. -/
def now : IO Moment := do
  let t ← Std.Time.Timestamp.now
  return Moment.utc (t.toNanosecondsSinceUnixEpoch.val / 1000)

/-- A moment as the journal shows it, in milliseconds. -/
def journalTime (m : Moment) : String :=
  let t := m.timeOfDay
  m.date.text ++ " " ++ { t with micro := 0 : TimeOfDay }.text ++ "," ++
    Text.padNat 3 (t.micro / 1000)

/-! ### What the outcome says -/

/-- Writes what changed in the files. -/
def writeFiles (before after : FileTree) : IO Unit :=
  (after.entries.reverse.filter (fun e => before.get? e.1 ≠ some e.2)).forM (fun e => do
    let path := "/" ++ String.intercalate "/" e.1
    match e.2 with
    | .directory => IO.FS.createDirAll path
    | .file content => IO.FS.writeBinFile path ⟨content.toArray⟩
    | .damaged => pure ())

/-- Prints what is new in the output of a further run. -/
def printFrom (shown : Nat) (out : String) : IO Unit := do
  let stdout ← IO.getStdout
  stdout.putStr (String.ofList (out.toList.drop shown))
  stdout.flush

/-- Whether a generation ended because the lines did. -/
def wantsLine (arguments : List String) (o : Program.Outcome) : Bool :=
  match Invocation.parse arguments with
  | .ok i => i.command = .generate && o.ending = .code 130
  | .error _ => false

/-- Runs the program, again for each line that it asks for. -/
partial def converse (s : Surroundings) (arguments : List String)
    (shown : Nat) : IO Program.Outcome := do
  let o := Program.run {} s arguments
  printFrom shown o.out
  if wantsLine arguments o then
    let line ← (← IO.getStdin).getLine
    if line.isEmpty then return o
    else converse { s with lines := s.lines ++ Console.lines line } arguments o.out.length
  else return o

/-- Runs the program on this machine. -/
def runHere (arguments : List String) : IO UInt32 := do
  let place := (FilePath.ofText (← IO.currentDir).toString).parts
  let git ← workTree place
  let bare : Host := { environment := ← environment, files := { here := place } }
  let host ← picture git { bare with files := ← addPlace bare.files place } arguments
  let now ← now
  let s : Surroundings := {
    host, now, time := journalTime now, isTerminal := ← (← IO.getStdout).isTty, git
    wire := fun _ => .broken "requests are not sent by this program" }
  let o ← converse s arguments 0
  (← IO.getStderr).putStr o.err
  match o.ending with
  | .failed f => (← IO.getStderr).putStr (f.message ++ "\n")
  | _ => pure ()
  writeFiles host.files o.files
  return o.ending.exitCode.toUInt32

end PipelineRuns.Main

/-- Describes a Repository or generates a starter run. -/
def main (arguments : List String) : IO UInt32 :=
  PipelineRuns.Main.runHere arguments
