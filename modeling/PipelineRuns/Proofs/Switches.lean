import Mathlib.Data.List.Forall2
import PipelineRuns.CommandLine.Commands

/-!
# Global switches anywhere on a command line

The global switches are taken out of a command line wherever they stand, and what remains is the
command with its arguments. Here it is shown that they disturb nothing: a command line in which no
argument is read as a switch (`Grammar.IsForeign`) can be cut at any place, and a global switch with
its value, if it takes one, put in between, and it still leads to the same command with the same
arguments, or to the same error.

Both passes of the reader are followed through such a command line. The first tells for each foreign
argument that it is a word or an unknown switch, and which of the two makes no difference: the piece
leaves the argument over (`Piece.Leaves`, `Grammar.pieces_append_of_isForeign`). The second adds
what is left over to the extras in order (`Grammar.collect_append_of_leaves`), and in between a
switch writes down what it says and nothing else (`Grammar.collect_flag`, `Grammar.collect_value`,
`Grammar.collect_assigned`). A word that follows a switch is only taken by it when the switch needs
a value, and the value that is put in with it comes first.

Main statement: `Invocation.parse_insert`.
-/

namespace PipelineRuns

namespace CommandLine

/-! ### Arguments that are left over -/

/-- A piece that leaves an argument over when no word is required. -/
inductive Piece.Leaves : Piece → String → Prop
  | word (argument : String) : Leaves (.word argument) argument
  | unknown (argument : String) : Leaves (.unknown argument) argument

theorem Piece.leaves_ofUnnamed (argument : String) :
    (Piece.ofUnnamed argument).Leaves argument := by
  unfold ofUnnamed
  split
  · exact .word argument
  · exact .unknown argument

namespace Grammar

variable {g : Grammar} {argument : String}

/-- Whether an argument is read as a switch. -/
def readsSwitch (g : Grammar) (argument : String) : Bool :=
  match g.classify argument with
  | .ok (.switch _ _ _) => true
  | _ => false

/-- An argument is neither the separator nor read as a switch. -/
structure IsForeign (g : Grammar) (argument : String) : Prop where
  ne_separator : argument ≠ separatorText
  unread : g.readsSwitch argument = false

instance (g : Grammar) (argument : String) : Decidable (g.IsForeign argument) :=
  decidable_of_iff (argument ≠ separatorText ∧ g.readsSwitch argument = false)
    ⟨fun h => ⟨h.1, h.2⟩, fun h => ⟨h.ne_separator, h.unread⟩⟩

theorem shortened_eq (h : g.shortens = false) (argument : String) :
    g.shortened argument = .ok (.ofUnnamed argument) := by
  unfold shortened
  rw [h]
  rfl

/-- Where long names cannot be cut short, an argument names a switch or is left over. -/
theorem classify_cases (h : g.shortens = false) (argument : String) :
    (∃ s name attached, g.classify argument = .ok (.switch s name attached)) ∨
      ∃ p, g.classify argument = .ok p ∧ p.Leaves argument := by
  unfold classify
  split
  · next second rest _ =>
    cases hnamed : g.named? argument with
    | some s => exact Or.inl ⟨s, argument, none, rfl⟩
    | none =>
      cases hassigned : g.assigned? argument with
      | some p =>
        -- What stands before an equals sign is the name of a switch.
        unfold assigned? at hassigned
        split at hassigned
        · next name value _ =>
          obtain ⟨s, -, rfl⟩ := Option.map_eq_some_iff.mp hassigned
          exact Or.inl ⟨s, name, some value, rfl⟩
        · exact nomatch hassigned
      | none =>
        dsimp only
        split
        · exact Or.inr ⟨_, shortened_eq h argument, Piece.leaves_ofUnnamed argument⟩
        · cases hshort : g.named? (String.ofList ['-', second]) with
          | some s => exact Or.inl ⟨s, _, _, rfl⟩
          | none => exact Or.inr ⟨_, rfl, Piece.leaves_ofUnnamed argument⟩
  · exact Or.inr ⟨_, rfl, .word argument⟩

theorem exists_leaves_of_isForeign (hshort : g.shortens = false) (h : g.IsForeign argument) :
    ∃ p, g.classify argument = .ok p ∧ p.Leaves argument := by
  rcases classify_cases hshort argument with ⟨s, name, attached, hread⟩ | hleaves
  · have hunread := h.unread
    unfold readsSwitch at hunread
    rw [hread] at hunread
    exact nomatch hunread
  · exact hleaves

/-- A name before an equals sign, with the value after it. -/
theorem classify_of_assigned {second : Char} {rest : List Char}
    (hchars : argument.toList = '-' :: second :: rest) (hnamed : g.named? argument = none)
    {p : Piece} (hassigned : g.assigned? argument = some p) : g.classify argument = .ok p := by
  unfold classify
  rw [hchars, hnamed, hassigned]
  rfl

theorem pieces_cons_of_classify {p : Piece} (hne : argument ≠ separatorText)
    (h : g.classify argument = .ok p) (rest : List String) :
    g.pieces (argument :: rest) = (g.pieces rest).map (p :: ·) := by
  rw [pieces, if_neg hne, h]
  cases g.pieces rest with
  | error fault => rfl
  | ok ps => rfl

/-- **The first pass over foreign arguments.** They become pieces that leave them over, whatever
follows. -/
theorem pieces_append_of_isForeign (hshort : g.shortens = false) {arguments : List String}
    (h : ∀ a ∈ arguments, g.IsForeign a) :
    ∃ ps, List.Forall₂ Piece.Leaves ps arguments ∧
      ∀ rest, g.pieces (arguments ++ rest) = (g.pieces rest).map (ps ++ ·) := by
  induction arguments with
  | nil => exact ⟨[], .nil, fun rest => by cases hrest : g.pieces rest <;> simp [hrest, Except.map]⟩
  | cons a arguments ih =>
    obtain ⟨ps, hps, hpieces⟩ := ih (fun b hb => h b (List.mem_cons_of_mem a hb))
    have ha := h a List.mem_cons_self
    obtain ⟨p, hp, hleaves⟩ := exists_leaves_of_isForeign hshort ha
    refine ⟨p :: ps, .cons hleaves hps, fun rest => ?_⟩
    rw [List.cons_append, pieces_cons_of_classify ha.ne_separator hp, hpieces]
    cases g.pieces rest with
    | error fault => rfl
    | ok qs => rfl

/-! ### What the second pass collects -/

/-- No separator comes next, so that a word before it stands alone. -/
def NoSeparatorNext (ps : List Piece) : Prop := ps.head? ≠ some .separator

theorem noSeparatorNext_append {ps rest : List Piece} {arguments : List String}
    (h : List.Forall₂ Piece.Leaves ps arguments) (hrest : NoSeparatorNext rest) :
    NoSeparatorNext (ps ++ rest) := by
  cases h with
  | nil => exact hrest
  | cons hp _ =>
    unfold NoSeparatorNext
    cases hp with
    | word => simp
    | unknown => simp

theorem collect_cons_of_leaves (hword : g.word = none) {p : Piece} (h : p.Leaves argument)
    (f : Findings) {rest : List Piece} (hrest : NoSeparatorNext rest) :
    g.collect f (p :: rest) = g.collect (f.spare [argument]) rest := by
  cases h with
  | word =>
    have hadd : f.addWord g argument [argument] = f.spare [argument] := by
      unfold Findings.addWord Findings.lacksWord
      rw [hword]
      rfl
    rw [← hadd, collect]
    rintro after rfl
    exact hrest rfl
  | unknown => rw [collect]

/-- **The second pass over what is left over.** It is added to the extras in order, and nothing else
changes. -/
theorem collect_append_of_leaves (hword : g.word = none) {ps : List Piece} {arguments : List String}
    (h : List.Forall₂ Piece.Leaves ps arguments) (f : Findings) {rest : List Piece}
    (hrest : NoSeparatorNext rest) :
    g.collect f (ps ++ rest) = g.collect (f.spare arguments) rest := by
  induction h generalizing f with
  | nil =>
    have hspare : f.spare [] = f := by
      unfold Findings.spare
      rw [List.append_nil]
    rw [hspare, List.nil_append]
  | @cons p a ps arguments hp htail ih =>
    have hnext : NoSeparatorNext (ps ++ rest) := noSeparatorNext_append htail hrest
    have hspare : (f.spare [a]).spare arguments = f.spare (a :: arguments) := by
      unfold Findings.spare
      rw [List.append_assoc, List.singleton_append]
    rw [List.cons_append, collect_cons_of_leaves hword hp f hnext, ih, hspare]

/-- A switch that stands alone, with all that it needs. -/
theorem collect_switch {s : Switch} {name : String} {attached v : Option String}
    (hcluster : g.clusterOf s name attached = .ok { last := s, attached := v })
    (hready : v.isSome = true ∨ s.takesValue = false) {f f' : Findings}
    (htake : s.take (v.getD "") f = .ok f') (rest : List Piece) :
    g.collect f (.switch s name attached :: rest) = g.collect f' rest := by
  have htaken : (takeFlags [] f >>= s.take (v.getD "")) = .ok f' := htake
  rw [collect, hcluster]
  cases v with
  | some value =>
    dsimp only
    rw [htaken]
  | none =>
    have htakes : s.takesValue = false := hready.resolve_left (by decide)
    dsimp only
    rw [htakes]
    dsimp only
    rw [htaken]

/-- What is attached to the name of a switch that takes a value is its value. -/
theorem clusterOf_of_takesValue {s : Switch} (h : s.takesValue = true) (name value : String) :
    g.clusterOf s name (some value) = .ok { last := s, attached := some value } := by
  unfold clusterOf
  dsimp only
  cases hchars : value.toList with
  | nil =>
    obtain rfl := String.toList_eq_nil_iff.mp hchars
    rw [cluster, if_pos h]
  | cons c rest => rw [cluster, if_pos h, ← hchars, String.ofList_toList]

/-- A switch with its value in the next argument. -/
theorem collect_switch_word {s : Switch} {name value : String} (htakes : s.takesValue = true)
    {f f' : Findings} (htake : s.take value f = .ok f') (rest : List Piece) :
    g.collect f (.switch s name none :: .word value :: rest) = g.collect f' rest := by
  have hcluster : g.clusterOf s name none = .ok { last := s, attached := none } := rfl
  have htaken : (takeFlags [] f >>= s.take value) = .ok f' := htake
  rw [collect, hcluster]
  dsimp only
  rw [htakes]
  dsimp only
  rw [htaken]

/-! ### Arguments put in between -/

/-- Arguments that become pieces of their own, which change the findings before them in one way and
leave the extras to what stands around them. -/
structure Says (g : Grammar) (arguments : List String) (ps : List Piece)
    (note : Findings → Findings) : Prop where
  pieces : ∀ rest, g.pieces (arguments ++ rest) = (g.pieces rest).map (ps ++ ·)
  next : ∀ rest, NoSeparatorNext rest → NoSeparatorNext (ps ++ rest)
  collect : ∀ f rest, g.collect f (ps ++ rest) = g.collect (note f) rest
  spare : ∀ f arguments, (note f).spare arguments = note (f.spare arguments)

theorem says_nil (g : Grammar) : g.Says [] [] id where
  pieces rest := by
    cases hrest : g.pieces rest with
    | error fault => simp [hrest, Except.map]
    | ok qs => simp [hrest, Except.map]
  next _ h := h
  collect _ _ := rfl
  spare _ _ := rfl

/-- **What is put in between disturbs nothing.** Foreign arguments are left over in order, and the
findings change as they would at any other place. -/
theorem findings_insert (hword : g.word = none) (hshort : g.shortens = false)
    {before arguments after : List String} (hbefore : ∀ a ∈ before, g.IsForeign a)
    (hafter : ∀ a ∈ after, g.IsForeign a) {ps : List Piece} {note : Findings → Findings}
    (h : g.Says arguments ps note) :
    g.findings (before ++ arguments ++ after) =
      .ok (note (Findings.spare {} (before ++ after))) := by
  obtain ⟨front, hfront, hfrontPieces⟩ := pieces_append_of_isForeign hshort hbefore
  obtain ⟨back, hback, hbackPieces⟩ := pieces_append_of_isForeign hshort hafter
  have hbackNext : NoSeparatorNext back := by
    have hnext : NoSeparatorNext (back ++ []) := noSeparatorNext_append hback nofun
    rwa [List.append_nil] at hnext
  have hpieces : g.pieces (before ++ arguments ++ after) = .ok (front ++ (ps ++ back)) := by
    have hlast := hbackPieces []
    rw [List.append_nil] at hlast
    rw [List.append_assoc, hfrontPieces, h.pieces, hlast]
    change Except.ok (front ++ (ps ++ (back ++ []))) = _
    rw [List.append_nil]
  -- The extras are collected in two runs, and the note passes through the second one.
  have hcollect :
      g.collect {} (front ++ (ps ++ back)) = .ok (note (Findings.spare {} (before ++ after))) := by
    have hlast : g.collect (note (Findings.spare {} before)) (back ++ []) =
        g.collect ((note (Findings.spare {} before)).spare after) [] :=
      collect_append_of_leaves hword hback (note (Findings.spare {} before)) nofun
    rw [List.append_nil] at hlast
    rw [collect_append_of_leaves hword hfront {} (h.next back hbackNext), h.collect, hlast, collect,
      h.spare]
    unfold Findings.spare
    rw [List.append_assoc]
  unfold findings
  rw [hpieces]
  dsimp only
  rw [hcollect, hword]

end Grammar

end CommandLine

/-! ### The global switches -/

namespace Invocation

open CommandLine

/-- The switch for a journal in full. -/
def verboseSwitch : Switch := ⟨["--verbose", "-v"], .flag, "Debug logging on stderr"⟩

/-- The switch that names the file of the settings. -/
def configSwitch : Switch := ⟨["--config", "-c"], .value "CONFIG" [], "Path to YAML config file"⟩

/-- A global switch as it stands on a command line, with its value if it takes one, and what becomes
of an invocation by it. -/
inductive Setting : List String → (Invocation → Invocation) → Prop
  | shortVerbose : Setting ["-v"] (fun i => { i with verbose := true })
  | verbose : Setting ["--verbose"] (fun i => { i with verbose := true })
  | shortConfig (path : String) (h : path.toList.head? ≠ some '-') :
    Setting ["-c", path] (fun i => { i with config := .text path })
  | config (path : String) (h : path.toList.head? ≠ some '-') :
    Setting ["--config", path] (fun i => { i with config := .text path })
  | assignedConfig (path : String) (h : path.toList.head? ≠ some '-') :
    Setting ["--config=" ++ path] (fun i => { i with config := .text path })

/-- The invocation that findings tell of. -/
def ofFindings (f : Findings) : Except Halt Invocation :=
  match commandOf f.extras with
  | .error fault => .error (.ofFault grammar fault)
  | .ok (command, rest) => .ok ⟨f.value "--config", f.has "--verbose", command, rest⟩

theorem parse_of_findings {arguments : List String} {f : Findings}
    (h : grammar.findings arguments = .ok f) : parse arguments = ofFindings f := by
  unfold parse Grammar.parseKnown
  rw [h]
  rfl

/-- The findings with the flag for a journal in full. -/
def noteVerbose (f : Findings) : Findings := { f with flags := "--verbose" :: f.flags }

/-- The findings with a file of settings. -/
def noteConfig (path : String) (f : Findings) : Findings :=
  { f with values := ("--config", .text path) :: f.values }

theorem ofFindings_noteVerbose (f : Findings) :
    ofFindings (noteVerbose f) = (ofFindings f).map (fun i => { i with verbose := true }) := by
  unfold ofFindings noteVerbose
  dsimp only
  cases commandOf f.extras with
  | error fault => rfl
  | ok found => simp [Except.map, Findings.has, Findings.value]

theorem ofFindings_noteConfig (path : String) (f : Findings) :
    ofFindings (noteConfig path f) = (ofFindings f).map
      (fun i => { i with config := .text path }) := by
  unfold ofFindings noteConfig
  dsimp only
  cases commandOf f.extras with
  | error fault => rfl
  | ok found => simp [Except.map, Findings.has, Findings.value]

theorem says_verbose {name : String} (hname : name = "-v" ∨ name = "--verbose") :
    grammar.Says [name] [.switch verboseSwitch name none] noteVerbose where
  pieces rest := by
    have hread : grammar.classify name = .ok (.switch verboseSwitch name none) := by
      rcases hname with rfl | rfl
      · rfl
      · rfl
    have hne : name ≠ separatorText := by
      rcases hname with rfl | rfl
      · decide
      · decide
    exact Grammar.pieces_cons_of_classify hne hread rest
  next _ _ := nofun
  collect f rest := Grammar.collect_switch (v := none) rfl (Or.inr rfl) rfl rest
  spare _ _ := rfl

section

variable {path : String} (hpath : path.toList.head? ≠ some '-')
include hpath

theorem ne_separatorText_of_head : path ≠ separatorText := by
  rintro rfl
  exact hpath rfl

/-- What does not begin with a dash is a word. -/
theorem classify_of_head (g : Grammar) : g.classify path = .ok (.word path) := by
  unfold Grammar.classify
  split
  · next heq =>
    rw [heq] at hpath
    exact absurd rfl hpath
  · rfl

theorem take_configSwitch (f : Findings) : configSwitch.take path f = .ok (noteConfig path f) := by
  have hvalue : OptionValue.ofArgument path = .text path := if_neg (ne_separatorText_of_head hpath)
  change Except.ok
    { f with values := (configSwitch.key, OptionValue.ofArgument path) :: f.values } = _
  rw [hvalue]
  rfl

theorem says_config {name : String} (hname : name = "-c" ∨ name = "--config") :
    grammar.Says [name, path] [.switch configSwitch name none, .word path] (noteConfig path) where
  pieces rest := by
    have hread : grammar.classify name = .ok (.switch configSwitch name none) := by
      rcases hname with rfl | rfl
      · rfl
      · rfl
    have hne : name ≠ separatorText := by
      rcases hname with rfl | rfl
      · decide
      · decide
    have hvalue :=
      Grammar.pieces_cons_of_classify (ne_separatorText_of_head hpath)
        (classify_of_head hpath grammar) rest
    rw [List.cons_append, Grammar.pieces_cons_of_classify hne hread, List.cons_append,
      List.nil_append, hvalue]
    -- Whatever follows is read as before, or fails as before.
    cases grammar.pieces rest with
    | error fault => rfl
    | ok ps => rfl
  next _ _ := nofun
  collect f rest := Grammar.collect_switch_word rfl (take_configSwitch hpath f) rest
  spare _ _ := rfl

end

/-- No switch has a name with an equals sign in it. -/
theorem named?_of_equals {argument : String} (h : '=' ∈ argument.toList) :
    grammar.named? argument = none := by
  have hfree : ∀ s ∈ grammar.switches, ∀ name ∈ s.names, '=' ∉ name.toList := by decide
  refine List.find?_eq_none.mpr (fun s hs hnamed => ?_)
  exact hfree s hs argument (List.contains_iff_mem.mp hnamed) h

theorem classify_assigned (path : String) :
    grammar.classify ("--config=" ++ path) = .ok (.switch configSwitch "--config" (some path)) := by
  have hchars : ("--config=" ++ path).toList = "--config".toList ++ '=' :: path.toList := by
    rw [String.toList_append]
    rfl
  have hcut : Text.cut? '=' ("--config=" ++ path) = some ("--config", path) := by
    unfold Text.cut?
    rw [hchars, List.takeWhile_append_of_pos (List.all_eq_true.mp rfl),
      List.dropWhile_append_of_pos (List.all_eq_true.mp rfl)]
    simp
  have hnone : grammar.named? ("--config=" ++ path) = none :=
    named?_of_equals (by rw [hchars]; simp)
  have hassigned :
      grammar.assigned? ("--config=" ++ path) =
        some (.switch configSwitch "--config" (some path)) := by
    unfold Grammar.assigned? Grammar.nameAndValue
    rw [hcut]
    rfl
  exact Grammar.classify_of_assigned hchars hnone hassigned

theorem says_assignedConfig {path : String} (hpath : path.toList.head? ≠ some '-') :
    grammar.Says ["--config=" ++ path] [.switch configSwitch "--config" (some path)]
      (noteConfig path) where
  pieces rest := by
    have hne : "--config=" ++ path ≠ separatorText := by
      intro heq
      have hlength := congrArg (fun s => s.toList.length) heq
      simp [separatorText] at hlength
    exact Grammar.pieces_cons_of_classify hne (classify_assigned path) rest
  next _ _ := nofun
  collect f rest :=
    Grammar.collect_switch (Grammar.clusterOf_of_takesValue rfl "--config" path) (Or.inl rfl)
      (take_configSwitch hpath f) rest
  spare _ _ := rfl

/-- What a setting is followed through: it says a note, and the note makes the change of the
setting. -/
theorem exists_says_of_setting {arguments : List String} {change : Invocation → Invocation}
    (h : Setting arguments change) :
    ∃ ps note, grammar.Says arguments ps note ∧
      ∀ f, ofFindings (note f) = (ofFindings f).map change := by
  cases h with
  | shortVerbose => exact ⟨_, _, says_verbose (Or.inl rfl), ofFindings_noteVerbose⟩
  | verbose => exact ⟨_, _, says_verbose (Or.inr rfl), ofFindings_noteVerbose⟩
  | shortConfig path hpath =>
    exact ⟨_, _, says_config hpath (Or.inl rfl), ofFindings_noteConfig path⟩
  | config path hpath => exact ⟨_, _, says_config hpath (Or.inr rfl), ofFindings_noteConfig path⟩
  | assignedConfig path hpath => exact ⟨_, _, says_assignedConfig hpath, ofFindings_noteConfig path⟩

/-- **A global switch may stand anywhere and disturbs nothing.** Let no argument of a command line
be the separator or read as a global switch. The command line leads to the command that its first
argument names, with the other arguments in their order, or to the error that goes with its first
argument. If it is cut in two at any place and a global switch that does not end the program is put
in between, with its value where it takes one, it leads to the same invocation except for what the
switch sets, or to the same error. -/
theorem parse_insert {before after inserted : List String} {change : Invocation → Invocation}
    (hforeign : ∀ a ∈ before ++ after, grammar.IsForeign a) (hset : Setting inserted change) :
    parse (before ++ after) = ((commandOf (before ++ after)).mapError (.ofFault grammar)).map
        (fun found => ⟨.absent, false, found.1, found.2⟩) ∧
      parse (before ++ inserted ++ after) = (parse (before ++ after)).map change := by
  obtain ⟨ps, note, hsays, hnote⟩ := exists_says_of_setting hset
  have hbefore : ∀ a ∈ before, grammar.IsForeign a :=
    fun a ha => hforeign a (List.mem_append_left after ha)
  have hafter : ∀ a ∈ after, grammar.IsForeign a :=
    fun a ha => hforeign a (List.mem_append_right before ha)
  have hplain : parse (before ++ after) = ofFindings (Findings.spare {} (before ++ after)) := by
    have hfindings := Grammar.findings_insert rfl rfl hbefore hafter (Grammar.says_nil grammar)
    rw [List.append_nil] at hfindings
    exact parse_of_findings hfindings
  -- Foreign arguments say nothing of the switches, so they are left over in their order.
  constructor
  · rw [hplain]
    unfold ofFindings Findings.spare
    dsimp only
    rw [List.nil_append]
    cases commandOf (before ++ after) with
    | error fault => rfl
    | ok found => rfl
  · rw [parse_of_findings (Grammar.findings_insert rfl rfl hbefore hafter hsays), hnote, hplain]

/-- The file of the settings between an unknown switch and its value. -/
theorem parse_insert_desc :
    (∀ a ∈ ["desc", "-x"] ++ ["v 1", "-5"], grammar.IsForeign a) ∧
      Setting ["-c", "p"] (fun i => { i with config := .text "p" }) ∧
      parse ["desc", "-x", "-c", "p", "v 1", "-5"] =
        .ok ⟨.text "p", false, .describe, ["-x", "v 1", "-5"]⟩ := by
  have hforeign : ∀ a ∈ ["desc", "-x"] ++ ["v 1", "-5"], grammar.IsForeign a := by decide
  have hset : Setting ["-c", "p"] (fun i => { i with config := .text "p" }) :=
    .shortConfig "p" (by decide)
  obtain ⟨hplain, hinsert⟩ := parse_insert hforeign hset
  rw [hplain] at hinsert
  exact ⟨hforeign, hset, hinsert⟩

end Invocation

end PipelineRuns
