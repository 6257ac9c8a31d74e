import PipelineRuns.Failure
import PipelineRuns.Text.Blank
import PipelineRuns.Text.Case
import PipelineRuns.Text.Digit
import PipelineRuns.Text.Line

/-!
# Questions

A `Prompter` answers questions: for one of several options, for a text, and for a yes or no. Its
state is what later answers depend on. A `Turn` is what becomes of one question: what was said, the
answer or why there is none, and the state after it.

`Prompter.console` asks a user. Its state is the list of lines that were not read yet. A question is
repeated, with a notice in between, until a line decides it (`Console.decideOption`,
`Console.decideConfirmation`); a blank line takes the default. Where the lines end, so does the
input.
-/

namespace PipelineRuns

/-- Something said to the user. -/
inductive Utterance where
  | text (s : String)
  /-- The last words of a question, after which the answer is read. -/
  | prompt (s : String)
  deriving DecidableEq, Repr

/-- The characters of an utterance. -/
def Utterance.shown : Utterance → String
  | text s | prompt s => s

/-- What becomes of a question. -/
structure Turn (σ α : Type) where
  said : List Utterance := []
  answer : Except Failure α
  state : σ

/-- Someone who answers questions. -/
structure Prompter (σ : Type) where
  /-- Chooses one of the options; one of them is the default. -/
  select : (message : String) → (options : List String) → (default : String) → σ → Turn σ String
  /-- Gives a text, which may be empty. -/
  ask : (message : String) → σ → Turn σ String
  /-- Says yes or no. -/
  confirm : (message : String) → (default : Bool) → σ → Turn σ Bool

namespace Console

/-- The lines of an input. A carriage return, alone or before a line feed, ends a line like a line
feed; after the last one there is no empty line. -/
def lines (input : String) : List String :=
  let all := (Text.splitAt '\n' (Text.unifyNewlines input.toList)).map String.ofList
  if all.getLast? = some "" then all.dropLast else all

/-- The turn of a question: lines are read until one decides it, and after every other one there is
a notice. -/
def turn {α : Type} (prompt notice : String) (decide : String → Option (Except Failure α)) :
    List String → Turn (List String) α
  | [] => ⟨[.prompt prompt], .error .endOfInput, []⟩
  | line :: rest =>
    match decide line with
    | some answer => ⟨[.prompt prompt], answer, rest⟩
    | none =>
      let later := turn prompt notice decide rest
      { later with said := .prompt prompt :: .text notice :: later.said }

/-- Whether a text consists of digits; they need not be decimal ones. -/
def isNumeral (s : String) : Bool :=
  s ≠ "" && s.toList.all Text.isDigit

/-- The option whose text a line is. -/
def decideByText (options : List String) (line : String) : Option (Except Failure String) :=
  if options.contains line then some (.ok line) else none

/-- What a line says on a choice of options: a blank one takes the default, a number counts the
options from one, and the text of an option is that option. A numeral without a value is an
error. -/
def decideOption (options : List String) (default line : String) : Option (Except Failure String) :=
  let s := Text.strip line
  if s = "" then some (.ok default)
  else if isNumeral s then
    match Text.decimal? s.toList with
    | none => some (.error .badValue)
    | some 0 => decideByText options s
    | some (n + 1) =>
      match options[n]? with
      | some o => some (.ok o)
      | none => decideByText options s
  else decideByText options s

/-- What a line says on a yes or no: a blank one takes the default. -/
def decideConfirmation (default : Bool) (line : String) : Option (Except Failure Bool) :=
  let s := Text.toLower (Text.strip line)
  if s = "" then some (.ok default)
  else if s = "y" || s = "yes" then some (.ok true)
  else if s = "n" || s = "no" then some (.ok false)
  else none

/-- The line of an option, the `n`-th of all. -/
def optionLine (default : String) (n : Nat) (option : String) : String :=
  "  " ++ toString n ++ ") " ++ option ++ (if option = default then " (default)" else "") ++ "\n"

/-- The lines of options, counted from `n`. -/
def optionLines (default : String) : Nat → List String → List Utterance
  | _, [] => []
  | n, o :: rest => .text (optionLine default n o) :: optionLines default (n + 1) rest

/-- The choice of an option. -/
def select (message : String) (options : List String) (default : String) (lines : List String) :
    Turn (List String) String :=
  let notice := "Please enter a number between 1 and " ++ toString options.length ++ "\n"
  let t := turn "> " notice (decideOption options default) lines
  { t with said := .text ("? " ++ message ++ "\n") :: optionLines default 1 options ++ t.said }

/-- The question for a text. -/
def ask (message : String) (lines : List String) : Turn (List String) String :=
  turn ("? " ++ message ++ " ") "" (fun line => some (.ok (Text.strip line))) lines

/-- The question for a yes or no. -/
def confirm (message : String) (default : Bool) (lines : List String) : Turn (List String) Bool :=
  let hint := if default then "(Y/n)" else "(y/N)"
  turn ("? " ++ message ++ " " ++ hint ++ " ") "Please answer yes or no\n"
    (decideConfirmation default) lines

end Console

/-- Asks a user at a console. -/
def Prompter.console : Prompter (List String) where
  select := Console.select
  ask := Console.ask
  confirm := Console.confirm

end PipelineRuns
