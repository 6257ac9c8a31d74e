import PipelineRuns.Proofs.Actions
import PipelineRuns.Yaml.Read

/-!
# What can be wrong with a document

A text that is not read as YAML is refused for one of a few reasons (`Yaml.IsFault`): the text
itself is none, a scalar of it has no value, which is a matter of its tag, or what it means is left
out. The shallowest reason in a document is one of those that its scalars and collections give rise
to, so it is enough to go through these (`Yaml.Node.isFault_of_mem_faults`). What holds of a text
with one document (`Yaml.failsOnly_parse`) holds of one with several (`Yaml.failsOnly_parseAll`).
-/

namespace PipelineRuns

variable {α : Type}

namespace Yaml

/-- Why a text cannot be read as YAML. -/
inductive IsFault : Failure → Prop
  | notYaml : IsFault .notYaml
  | badValue : IsFault .badValue
  | emptySequence : IsFault .emptySequence
  | unknownKey : IsFault .unknownKey
  | notMapping : IsFault .notMapping
  | wrongType : IsFault .wrongType
  | outOfRange : IsFault .outOfRange
  | leftOut : IsFault .leftOut

/-! ### Scalars -/

namespace Scalar

/-- A whole number fails on its digits alone. -/
theorem failsOnly_intValue (s : List Char) : FailsOnly IsFault (intValue s) := by
  unfold intValue
  split
  · exact .error .emptySequence
  · next c rest _ =>
    dsimp only
    -- The sign does not matter here, and the notation of what follows it does.
    generalize (if (c = '-' || c = '+') = true then rest else c :: rest) = body
    split
    · exact .error .emptySequence
    · exact .ok _
    · split
      · exact .ok _
      · exact .error .badValue
    · split
      · exact .ok _
      · exact .error .badValue
    · split
      · exact .ok _
      · exact .error .badValue
    · split
      · split
        · exact .ok _
        · exact .error .badValue
      · split
        · exact .ok _
        · exact .error .badValue

/-- A number that was worked out has a value unless it is not a number. -/
theorem failsOnly_computed (x : Float) : FailsOnly IsFault (computed x) := by
  unfold computed
  split
  · exact .error .leftOut
  · exact .ok _

/-- A fraction fails on its digits, since it has too many groups, or since it is not a number. -/
theorem failsOnly_floatValue (s : List Char) : FailsOnly IsFault (floatValue s) := by
  unfold floatValue
  split
  · exact .error .emptySequence
  · next c rest _ =>
    dsimp only
    generalize (if (c = '-' || c = '+') = true then rest else c :: rest) = body
    split
    · exact failsOnly_computed _
    split
    · exact .ok _
    split
    · split
      · split
        · exact failsOnly_computed _
        · exact .error .outOfRange
      · exact .error .badValue
    · split
      · exact failsOnly_computed _
      · exact .error .badValue

/-- A time fails on numbers that are out of range. -/
theorem failsOnly_timestampValue (s : List Char) : FailsOnly IsFault (timestampValue s) := by
  unfold timestampValue
  dsimp only
  split
  · exact .error .notMapping
  split
  · split
    · exact .ok _
    · exact .error .badValue
  · split
    · split
      · exact .ok _
      · exact .error .badValue
    · exact .error .badValue

/-- Whatever a scalar is read as, it fails with a fault. -/
theorem failsOnly_value (tag : Tag) (text : String) : FailsOnly IsFault (value tag text) := by
  unfold value
  split
  · exact .ok _
  · unfold boolValue
    dsimp only
    split
    · exact .ok _
    split
    · exact .ok _
    · exact .error .unknownKey
  · exact failsOnly_intValue _
  · exact failsOnly_floatValue _
  · unfold binaryValue
    split
    · exact .error .notYaml
    split
    · exact .ok _
    · exact .error .notYaml
  · exact failsOnly_timestampValue _
  · exact .ok _
  · exact .error .notYaml

end Scalar

/-! ### Nodes -/

namespace Node

mutual

theorem failsOnly_scalarText : ∀ n : Node, FailsOnly IsFault (scalarText n)
  | .scalar _ s => by
    rw [scalarText]
    exact .ok s
  | .sequence _ _ => by
    rw [scalarText]
    exact .error .notYaml
  | .mapping _ entries => by
    rw [scalarText]
    exact failsOnly_markedText entries
  | .loop => by
    rw [scalarText]
    exact .error .leftOut

theorem failsOnly_markedText :
    ∀ entries : List (Node × Node), FailsOnly IsFault (markedText entries)
  | [] => by
    rw [markedText]
    exact .error .notYaml
  | (k, v) :: rest => by
    rw [markedText]
    split
    · exact failsOnly_scalarText v
    · exact failsOnly_markedText rest

end

theorem failsOnly_markedValue (t : Tag) (entries : List (Node × Node)) :
    FailsOnly IsFault (markedValue t entries) := by
  refine .bind (failsOnly_markedText entries) (fun s => ?_)
  split
  · exact .error .wrongType
  · exact Scalar.failsOnly_value t s

/-- What is noted of a value that fails is its failure. -/
theorem isFault_of_mem_faultOf {depth : Nat} {x : Except Failure Value} (hx : FailsOnly IsFault x) :
    ∀ p ∈ faultOf depth x, IsFault p.2 := by
  intro p hp
  cases x with
  | ok v => exact nomatch hp
  | error f =>
    rw [List.mem_singleton.mp hp]
    exact hx f rfl

mutual

/-- Every reason that a node gives is one of these. -/
theorem isFault_of_mem_faults (depth : Nat) : ∀ n : Node, ∀ p ∈ faults depth n, IsFault p.2
  | .scalar t s, p, hp => by
    rw [faults] at hp
    exact isFault_of_mem_faultOf (Scalar.failsOnly_value t s) p hp
  | .sequence t items, p, hp => by
    rw [faults.eq_def] at hp
    dsimp only at hp
    -- A sequence is read as a list, as ordered pairs or as pairs; under any other tag it is a fault
    -- of its own.
    split at hp
    · exact isFault_of_mem_itemFaults _ items p hp
    · exact isFault_of_mem_pairFaults _ items p hp
    · exact isFault_of_mem_pairFaults _ items p hp
    all_goals
      rw [List.mem_singleton.mp hp]
      exact .notYaml
  | .mapping t entries, p, hp => by
    rw [faults.eq_def] at hp
    dsimp only at hp
    -- A mapping is read entry by entry, also as a set; under the tags of sequences it is a fault.
    split at hp
    · exact isFault_of_mem_entryFaults _ entries p hp
    · exact isFault_of_mem_entryFaults _ entries p hp
    · rw [List.mem_singleton.mp hp]
      exact .notYaml
    · rw [List.mem_singleton.mp hp]
      exact .notYaml
    · rw [List.mem_singleton.mp hp]
      exact .notYaml
    · exact isFault_of_mem_faultOf (failsOnly_markedValue t entries) p hp
  | .loop, p, hp => by
    rw [faults] at hp
    rw [List.mem_singleton.mp hp]
    exact .leftOut

theorem isFault_of_mem_itemFaults (depth : Nat) :
    ∀ items : List Node, ∀ p ∈ itemFaults depth items, IsFault p.2
  | [], p, hp => by
    rw [itemFaults] at hp
    exact nomatch hp
  | n :: rest, p, hp => by
    rw [itemFaults, List.mem_append] at hp
    rcases hp with hp | hp
    · exact isFault_of_mem_faults depth n p hp
    · exact isFault_of_mem_itemFaults depth rest p hp

theorem isFault_of_mem_pairFaults (depth : Nat) :
    ∀ items : List Node, ∀ p ∈ pairFaults depth items, IsFault p.2
  | [], p, hp => by
    rw [pairFaults] at hp
    exact nomatch hp
  | n :: rest, p, hp => by
    rw [pairFaults.eq_def] at hp
    dsimp only at hp
    rw [List.mem_append] at hp
    rcases hp with hp | hp
    · split at hp
      · next t k v =>
        rw [List.mem_append] at hp
        rcases hp with hp | hp
        · exact isFault_of_mem_faults depth k p hp
        · exact isFault_of_mem_faults depth v p hp
      · rw [List.mem_singleton.mp hp]
        exact .leftOut
      · rw [List.mem_singleton.mp hp]
        exact .notYaml
    · exact isFault_of_mem_pairFaults depth rest p hp

theorem isFault_of_mem_entryFaults (depth : Nat) :
    ∀ entries : List (Node × Node), ∀ p ∈ entryFaults depth entries, IsFault p.2
  | [], p, hp => by
    rw [entryFaults] at hp
    exact nomatch hp
  | (k, v) :: rest, p, hp => by
    rw [entryFaults, List.mem_append, List.mem_append, List.mem_append] at hp
    rcases hp with ((hp | hp) | hp) | hp
    · exact isFault_of_mem_faults depth k p hp
    · split at hp
      · exact nomatch hp
      · rw [List.mem_singleton.mp hp]
        exact .notYaml
    · exact isFault_of_mem_faults depth v p hp
    · exact isFault_of_mem_entryFaults depth rest p hp

end

/-- The shallowest reason is one of the reasons. -/
theorem exists_of_shallowest {fs : List (Nat × Failure)} {f : Failure}
    (h : shallowest fs = some f) : ∃ p ∈ fs, p.2 = f := by
  have hfold (rest : List (Nat × Failure)) (best : Nat × Failure) :
      rest.foldl (fun best g => if g.1 < best.1 then g else best) best ∈ best :: rest := by
    induction rest generalizing best with
    | nil => exact List.mem_cons_self
    | cons g rest ih =>
      rw [List.foldl_cons]
      have hstep := ih (if g.1 < best.1 then g else best)
      rw [List.mem_cons] at hstep ⊢
      rcases hstep with hbest | hrest
      · rw [hbest]
        split
        · exact Or.inr List.mem_cons_self
        · exact Or.inl rfl
      · exact Or.inr (List.mem_cons_of_mem g hrest)
  cases fs with
  | nil => exact nomatch h
  | cons first rest => exact ⟨_, hfold rest first, Option.some.inj h⟩

/-- A node fails with one of the faults that are noted in it. -/
theorem failsOnly_read (n : Node) : FailsOnly IsFault n.read := by
  unfold Node.read
  dsimp only
  cases hshallowest : shallowest ((faults 0 n.merged).filter (fun f => f.2 ≠ .leftOut)) with
  | none =>
    dsimp only
    split
    · exact .ok _
    · exact .error .leftOut
  | some g =>
    obtain ⟨p, hp, rfl⟩ := exists_of_shallowest hshallowest
    exact .error (isFault_of_mem_faults 0 n.merged p (List.mem_filter.mp hp).1)

end Node

/-! ### Texts -/

theorem failsOnly_lift (x : Except Fault α) : FailsOnly IsFault (lift x) := by
  cases x with
  | ok a => exact .ok a
  | error f =>
    cases f with
    | notYaml => exact .error .notYaml
    | badNumber => exact .error .badValue
    | outOfRange => exact .error .outOfRange
    | leftOut => exact .error .leftOut

/-- A text with one document fails with a fault. -/
theorem failsOnly_parse (text : String) : FailsOnly IsFault (parse text) := by
  unfold parse
  dsimp only
  split
  · refine .bind (failsOnly_lift _) (fun ⟨n?, r⟩ => ?_)
    cases n? with
    | none => exact .ok _
    | some n =>
      refine .bind (failsOnly_lift _) (fun ⟨second, _⟩ => ?_)
      dsimp only
      split
      · exact .error .notYaml
      · exact Node.failsOnly_read n
  · exact .error .notYaml

/-- The documents of a text are read one after the other. -/
theorem failsOnly_documents (fuel : Nat) (first : Bool) (r : Reader) :
    FailsOnly IsFault (documents fuel first r) := by
  induction fuel generalizing first r with
  | zero => exact .error .notYaml
  | succ fuel ih =>
    unfold documents
    refine .bind (failsOnly_lift _) (fun ⟨n?, r⟩ => ?_)
    cases n? with
    | none => exact .ok _
    | some n =>
      have hread := Node.failsOnly_read n
      dsimp only
      split
      · exact .bind (ih false r) (fun more => .ok _)
      · exact .bind (ih false r) (fun _ => .error .leftOut)
      · next f _ hf => exact .error (hread f hf)

/-- So does a text with several. -/
theorem failsOnly_parseAll (text : String) : FailsOnly IsFault (parseAll text) := by
  unfold parseAll
  dsimp only
  split
  · exact failsOnly_documents _ _ _
  · exact .error .notYaml

end Yaml

end PipelineRuns
