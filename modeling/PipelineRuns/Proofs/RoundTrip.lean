import PipelineRuns.Proofs.Scanning

/-!
# Trees read as they were written

A legible tree that is a list or a mapping is read back as its own value (`parse_write`). The tokens
are those of `scan_write`; here they are read into the nodes of the tree, and these into its values.

A collection is read by calls that pass fuel on, and three calls at most lie between two tokens. So
three times the number of tokens is enough for a node, and the reader has four times as much. A list
in the column of a key has no token for its end: it ends where no dash follows, which holds as what
follows a value is a key or the end of the block.

No node of a tree is a merge or lacks a value. A mapping keeps its entries in order because its keys
differ, which is the one place where this is used.

Main statement: `parse_write`.
-/

namespace PipelineRuns.Yaml

namespace Tree

mutual

/-- The node of a tree. -/
def node : Tree → Node
  | .text s => .scalar .text s
  | .list items => .sequence .list (itemNodes items)
  | .mapping entries => .mapping .mapping (entryNodes entries)

/-- The nodes of items. -/
def itemNodes : List Tree → List Node
  | [] => []
  | t :: rest => node t :: itemNodes rest

/-- The nodes of entries. -/
def entryNodes : List (String × Tree) → List (Node × Node)
  | [] => []
  | (k, t) :: rest => (.scalar .text k, node t) :: entryNodes rest

end

mutual

/-- The value of a tree. -/
def value : Tree → Value
  | .text s => .text s
  | .list items => .list (itemValues items)
  | .mapping entries => .mapping (entryValues entries)

/-- The values of items. -/
def itemValues : List Tree → List Value
  | [] => []
  | t :: rest => value t :: itemValues rest

/-- The entries of a mapping. -/
def entryValues : List (String × Tree) → Mapping
  | [] => []
  | (k, t) :: rest => (.text k, value t) :: entryValues rest

end

end Tree

/-! ### From tokens to nodes -/

namespace Reader

variable {fuel : Nat} {rest : List Token} {anchors : List (String × Node)}
  {handles : List (String × String)} {dashes : Bool} {ts : List Token}

theorem node_scalar (text : String) (isPlain : Bool) :
    node (fuel + 1) true dashes ⟨.scalar text isPlain :: rest, anchors, handles⟩ =
      .ok (.scalar (scalarTag none isPlain text) text, ⟨rest, anchors, handles⟩) := rfl

theorem node_dashes : node (fuel + 1) true true ⟨.blockEntry :: rest, anchors, handles⟩ =
    (fun read => (.sequence .list read.1, read.2)) <$> dashItems fuel
      ⟨.blockEntry :: rest, anchors, handles⟩ := rfl

theorem node_sequence :
    node (fuel + 1) true dashes ⟨.blockSequenceStart :: rest, anchors, handles⟩ =
    (fun read => (.sequence .list read.1, read.2)) <$> blockItems fuel
      ⟨rest, anchors, handles⟩ := by
  cases dashes <;> rfl

theorem node_mapping : node (fuel + 1) true dashes ⟨.blockMappingStart :: rest, anchors, handles⟩ =
    (fun read => (.mapping .mapping read.1, read.2)) <$> blockEntries fuel
      ⟨rest, anchors, handles⟩ := by
  cases dashes <;> rfl

theorem scalarTag_text {s : String} (hs : IsPlainWord s ∨ IsQuoted s) :
    scalarTag none (decide (Written.style s = .plain)) s = .text := by
  rcases hs with hs | hs
  · rw [hs.style]
    exact hs.traits.2
  · rw [hs.style]
    rfl

theorem dashItems_cons {n : Node} {items : List Node} {r r' : Reader}
    (hitem : nodeUnless fuel [.blockEntry, .key, .value, .blockEnd] true false
      ⟨ts, anchors, handles⟩ = .ok (n, r))
    (hmore : dashItems fuel r = .ok (items, r')) :
    dashItems (fuel + 1) ⟨.blockEntry :: ts, anchors, handles⟩ = .ok (n :: items, r') := by
  rw [dashItems]
  change nodeUnless fuel _ true false ⟨ts, anchors, handles⟩ >>= _ = _
  rw [hitem]
  change dashItems fuel r >>= _ = _
  rw [hmore]
  rfl

theorem blockItems_cons {n : Node} {items : List Node} {r r' : Reader}
    (hitem : nodeUnless fuel [.blockEntry, .blockEnd] true false ⟨ts, anchors, handles⟩ =
      .ok (n, r))
    (hmore : blockItems fuel r = .ok (items, r')) :
    blockItems (fuel + 1) ⟨.blockEntry :: ts, anchors, handles⟩ = .ok (n :: items, r') := by
  rw [blockItems]
  change nodeUnless fuel _ true false ⟨ts, anchors, handles⟩ >>= _ = _
  rw [hitem]
  change blockItems fuel r >>= _ = _
  rw [hmore]
  rfl

theorem blockEntries_cons {k n : Node} {entries : List (Node × Node)} {ts' : List Token}
    {r r' : Reader}
    (hkey : nodeUnless (fuel + 1) [.key, .value, .blockEnd] true true ⟨ts, anchors, handles⟩ =
      .ok (k, ⟨.value :: ts', anchors, handles⟩))
    (hvalue : nodeUnless fuel [.key, .value, .blockEnd] true true ⟨ts', anchors, handles⟩ =
      .ok (n, r))
    (hmore : blockEntries (fuel + 1) r = .ok (entries, r')) :
    blockEntries (fuel + 2) ⟨.key :: ts, anchors, handles⟩ = .ok ((k, n) :: entries, r') := by
  have hblock : blockValue (fuel + 1) ⟨.value :: ts', anchors, handles⟩ = .ok (n, r) := by
    rw [blockValue]
    exact hvalue
  rw [blockEntries]
  change nodeUnless (fuel + 1) _ true true ⟨ts, anchors, handles⟩ >>= _ = _
  rw [hkey]
  change blockValue (fuel + 1) ⟨.value :: ts', anchors, handles⟩ >>= _ = _
  rw [hblock]
  change blockEntries (fuel + 1) r >>= _ = _
  rw [hmore]
  rfl

/-- No value starts with a token that ends one. -/
theorem nodeUnless_tokens {t : Tree} (ht : t.Legible)
    (hts : ∀ x ∈ ts, x = .key ∨ x = .value ∨ x = .blockEnd ∨ x = .blockEntry ∧ dashes = false) :
    nodeUnless (fuel + 1) ts true dashes ⟨t.tokens dashes ++ rest, anchors, handles⟩ =
      node fuel true dashes ⟨t.tokens dashes ++ rest, anchors, handles⟩ := by
  have hfirst : isAt ⟨t.tokens dashes ++ rest, anchors, handles⟩ ts = false := by
    unfold isAt
    rw [List.contains_eq_mem, decide_eq_false_iff_not]
    intro hmem
    -- A tree starts with a scalar, with the start of a block, or with the first dash of a list
    -- after a key.
    match t, ht with
    | .text s, _ => rcases hts _ hmem with h | h | h | ⟨h, -⟩ <;> exact nomatch h
    | .mapping entries, _ => rcases hts _ hmem with h | h | h | ⟨h, -⟩ <;> exact nomatch h
    | .list [], ⟨hne, _⟩ => exact hne rfl
    | .list (t :: items), _ =>
      cases dashes with
      | true => rcases hts _ hmem with h | h | h | ⟨-, h⟩ <;> exact nomatch h
      | false => rcases hts _ hmem with h | h | h | ⟨h, -⟩ <;> exact nomatch h
  rw [nodeUnless, hfirst, if_neg Bool.false_ne_true]

mutual

/-- The tokens of a tree are read as its node. -/
theorem node_tokens : ∀ (t : Tree), t.Legible → ∀ {dashes : Bool} {rest : List Token} {fuel : Nat},
    (dashes = true → rest.head? ≠ some .blockEntry) → 3 * (t.tokens dashes).length ≤ fuel →
    node fuel true dashes ⟨t.tokens dashes ++ rest, anchors, handles⟩ =
      .ok (t.node, ⟨rest, anchors, handles⟩)
  | .text s, hs, dashes, rest, fuel, _, hfuel => by
    obtain ⟨fuel, rfl⟩ : ∃ n, fuel = n + 1 := ⟨fuel - 1, by simp [Tree.tokens] at hfuel; omega⟩
    change node (fuel + 1) true dashes ⟨.scalar s (Written.style s = .plain) :: rest, anchors,
      handles⟩ = _
    rw [node_scalar, scalarTag_text hs]
    rfl
  -- A list below a key is written without an indentation of its own, so it has no start and no end.
  | .list (t :: items), ⟨_, hitems⟩, true, rest, fuel, hrest, hfuel => by
    obtain ⟨fuel, rfl⟩ : ∃ n, fuel = n + 1 :=
      ⟨fuel - 1, by simp [Tree.tokens, Tree.itemTokens] at hfuel; omega⟩
    have hitems : dashItems fuel ⟨Tree.itemTokens (t :: items) ++ rest, anchors, handles⟩ =
        .ok (Tree.itemNodes (t :: items), ⟨rest, anchors, handles⟩) :=
      dashItems_tokens (t :: items) hitems (hrest rfl) (by simp [Tree.tokens] at hfuel; omega)
        (by simp [Tree.tokens, Tree.itemTokens] at hfuel; omega)
    change node (fuel + 1) true true
      ⟨.blockEntry :: (t.tokens false ++ Tree.itemTokens items ++ rest), anchors,
      handles⟩ = _
    rw [node_dashes]
    exact congrArg _ hitems
  | .list items, ⟨_, hitems⟩, false, rest, fuel, _, hfuel => by
    obtain ⟨fuel, rfl⟩ : ∃ n, fuel = n + 1 := ⟨fuel - 1, by simp [Tree.tokens] at hfuel; omega⟩
    have hitems : blockItems fuel ⟨Tree.itemTokens items ++ .blockEnd :: rest, anchors, handles⟩ =
        .ok (Tree.itemNodes items, ⟨rest, anchors, handles⟩) :=
      blockItems_tokens items hitems (by simp [Tree.tokens] at hfuel; omega)
        (by simp [Tree.tokens] at hfuel; omega)
    have htokens : (Tree.list items).tokens false ++ rest =
        .blockSequenceStart :: (Tree.itemTokens items ++ .blockEnd :: rest) := by
      simp [Tree.tokens]
    rw [htokens, node_sequence]
    exact congrArg _ hitems
  | .mapping entries, ⟨_, _, hentries⟩, dashes, rest, fuel, _, hfuel => by
    obtain ⟨fuel, rfl⟩ : ∃ n, fuel = n + 1 := ⟨fuel - 1, by simp [Tree.tokens] at hfuel; omega⟩
    have hentries :
        blockEntries fuel ⟨Tree.entryTokens entries ++ .blockEnd :: rest, anchors, handles⟩ =
        .ok (Tree.entryNodes entries, ⟨rest, anchors, handles⟩) :=
      blockEntries_tokens entries hentries (by simp [Tree.tokens] at hfuel; omega)
        (by simp [Tree.tokens] at hfuel; omega)
    have htokens : (Tree.mapping entries).tokens dashes ++ rest =
        .blockMappingStart :: (Tree.entryTokens entries ++ .blockEnd :: rest) := by
      simp [Tree.tokens]
    rw [htokens, node_mapping]
    exact congrArg _ hentries

/-- Items in the column of a key, before something else. -/
theorem dashItems_tokens :
    ∀ (items : List Tree), Tree.LegibleItems items → ∀ {rest : List Token} {fuel : Nat},
    rest.head? ≠ some .blockEntry → 3 * (Tree.itemTokens items).length ≤ fuel + 1 → 1 ≤ fuel →
    dashItems fuel ⟨Tree.itemTokens items ++ rest, anchors, handles⟩ =
      .ok (Tree.itemNodes items, ⟨rest, anchors, handles⟩)
  | [], _, rest, fuel, hrest, _, hfuel => by
    obtain ⟨fuel, rfl⟩ : ∃ n, fuel = n + 1 := ⟨fuel - 1, by omega⟩
    have hpeek : peek ⟨rest, anchors, handles⟩ ≠ .blockEntry := by
      cases rest with
      | nil => exact fun h => nomatch h
      | cons t rest => exact fun h => hrest (congrArg some h)
    change dashItems (fuel + 1) ⟨rest, anchors, handles⟩ = _
    rw [dashItems]
    split
    · next h => exact absurd h hpeek
    · rfl
  | t :: items, ⟨ht, hitems⟩, rest, fuel, hrest, hfuel, _ => by
    rw [Tree.itemTokens, List.length_cons, List.length_append] at hfuel
    -- The dash pays for this call and the one that finds out whether there is an item.
    obtain ⟨fuel, rfl⟩ : ∃ n, fuel = n + 2 := ⟨fuel - 2, by omega⟩
    have hitem : nodeUnless (fuel + 1) [.blockEntry, .key, .value, .blockEnd] true false
        ⟨t.tokens false ++ (Tree.itemTokens items ++ rest), anchors, handles⟩ =
        .ok (t.node, ⟨Tree.itemTokens items ++ rest, anchors, handles⟩) :=
      (nodeUnless_tokens ht (by simp)).trans (node_tokens t ht (fun h => nomatch h) (by omega))
    have hmore : dashItems (fuel + 1) ⟨Tree.itemTokens items ++ rest, anchors, handles⟩ =
        .ok (Tree.itemNodes items, ⟨rest, anchors, handles⟩) :=
      dashItems_tokens items hitems hrest (by omega) (by omega)
    rw [Tree.itemTokens, List.cons_append, List.append_assoc]
    exact dashItems_cons hitem hmore

/-- Items in a block of their own. -/
theorem blockItems_tokens :
    ∀ (items : List Tree), Tree.LegibleItems items → ∀ {rest : List Token} {fuel : Nat},
    3 * (Tree.itemTokens items).length ≤ fuel + 1 → 1 ≤ fuel →
    blockItems fuel ⟨Tree.itemTokens items ++ .blockEnd :: rest, anchors, handles⟩ =
      .ok (Tree.itemNodes items, ⟨rest, anchors, handles⟩)
  | [], _, rest, fuel, _, hfuel => by
    obtain ⟨fuel, rfl⟩ : ∃ n, fuel = n + 1 := ⟨fuel - 1, by omega⟩
    rfl
  | t :: items, ⟨ht, hitems⟩, rest, fuel, hfuel, _ => by
    rw [Tree.itemTokens, List.length_cons, List.length_append] at hfuel
    obtain ⟨fuel, rfl⟩ : ∃ n, fuel = n + 2 := ⟨fuel - 2, by omega⟩
    -- The fuel for an item and that for the rest come out of the same three units a token.
    have hitem : nodeUnless (fuel + 1) [.blockEntry, .blockEnd] true false
        ⟨t.tokens false ++ (Tree.itemTokens items ++ .blockEnd :: rest), anchors, handles⟩ =
        .ok (t.node, ⟨Tree.itemTokens items ++ .blockEnd :: rest, anchors, handles⟩) :=
      (nodeUnless_tokens ht (by simp)).trans (node_tokens t ht (fun h => nomatch h) (by omega))
    have hmore :
        blockItems (fuel + 1) ⟨Tree.itemTokens items ++ .blockEnd :: rest, anchors, handles⟩ =
        .ok (Tree.itemNodes items, ⟨rest, anchors, handles⟩) :=
      blockItems_tokens items hitems (by omega) (by omega)
    rw [Tree.itemTokens, List.cons_append, List.append_assoc]
    exact blockItems_cons hitem hmore

/-- The entries of a mapping. -/
theorem blockEntries_tokens : ∀ (entries : List (String × Tree)), Tree.LegibleEntries entries →
    ∀ {rest : List Token} {fuel : Nat}, 3 * (Tree.entryTokens entries).length ≤ fuel + 1 →
      1 ≤ fuel →
    blockEntries fuel ⟨Tree.entryTokens entries ++ .blockEnd :: rest, anchors, handles⟩ =
      .ok (Tree.entryNodes entries, ⟨rest, anchors, handles⟩)
  | [], _, rest, fuel, _, hfuel => by
    obtain ⟨fuel, rfl⟩ : ∃ n, fuel = n + 1 := ⟨fuel - 1, by omega⟩
    rfl
  | (k, t) :: entries, ⟨hk, ht, hentries⟩, rest, fuel, hfuel, _ => by
    simp only [Tree.entryTokens, List.length_cons, List.length_append] at hfuel
    obtain ⟨fuel, rfl⟩ : ∃ n, fuel = n + 3 := ⟨fuel - 3, by omega⟩
    have hkey : nodeUnless (fuel + 2) [.key, .value, .blockEnd] true true
      ⟨.scalar k true :: .value ::
        (t.tokens true ++ (Tree.entryTokens entries ++ .blockEnd :: rest)), anchors, handles⟩ =
        .ok (.scalar .text k,
          ⟨.value :: (t.tokens true ++ (Tree.entryTokens entries ++ .blockEnd :: rest)), anchors,
            handles⟩) := by
      have htag : scalarTag none true k = .text := hk.word.traits.2
      rw [← htag]
      rfl
    -- A list in the column of the key ends with the value: the next token is a key or the end of
    -- the block.
    have hnext : (Tree.entryTokens entries ++ .blockEnd :: rest).head? ≠ some .blockEntry := by
      cases entries <;> simp [Tree.entryTokens]
    have hvalue : nodeUnless (fuel + 1) [.key, .value, .blockEnd] true true
        ⟨t.tokens true ++ (Tree.entryTokens entries ++ .blockEnd :: rest), anchors, handles⟩ =
        .ok (t.node, ⟨Tree.entryTokens entries ++ .blockEnd :: rest, anchors, handles⟩) :=
      (nodeUnless_tokens ht (by simp)).trans (node_tokens t ht (fun _ => hnext) (by omega))
    have hmore :
        blockEntries (fuel + 2) ⟨Tree.entryTokens entries ++ .blockEnd :: rest, anchors, handles⟩ =
        .ok (Tree.entryNodes entries, ⟨rest, anchors, handles⟩) :=
      blockEntries_tokens entries hentries (by omega) (by omega)
    simp only [Tree.entryTokens, List.cons_append, List.append_assoc]
    exact blockEntries_cons hkey hvalue hmore

end

/-- A collection begins without a line that announces it. -/
theorem start_tokens {t : Tree} (hcollection : ∀ s, t ≠ .text s) :
    start true ⟨t.tokens false ++ [.streamEnd], [], []⟩ =
      .ok (.bare, ⟨t.tokens false ++ [.streamEnd], [], []⟩) := by
  cases t with
  | text s => exact absurd rfl (hcollection s)
  | list items => rfl
  | mapping entries => rfl

/-- A document is the node of its tokens. -/
theorem document?_tokens {t : Tree} (ht : t.Legible) (hcollection : ∀ s, t ≠ .text s) :
    document? true ⟨t.tokens false ++ [.streamEnd], [], []⟩ =
      .ok (some t.node, ⟨[.streamEnd], [], []⟩) := by
  have hnode : node (4 * (t.tokens false ++ [Token.streamEnd]).length + 4) true false
      ⟨t.tokens false ++ [.streamEnd], [], []⟩ = .ok (t.node, ⟨[.streamEnd], [], []⟩) :=
    node_tokens t ht (fun h => nomatch h) (by rw [List.length_append]; omega)
  have hcontent : content false ⟨t.tokens false ++ [.streamEnd], [], []⟩ =
      .ok (t.node, ⟨[.streamEnd], [], []⟩) := by
    change node _ true false ⟨t.tokens false ++ [.streamEnd], [], []⟩ >>= _ = _
    rw [hnode]
    rfl
  unfold document?
  rw [start_tokens hcollection]
  change content false ⟨t.tokens false ++ [.streamEnd], [], []⟩ >>= _ = _
  rw [hcontent]
  rfl

end Reader

/-! ### From nodes to values -/

namespace Node

theorem mergedPart_entryNodes : ∀ entries : List (String × Tree),
    mergedPart (Tree.entryNodes entries) = some []
  | [] => rfl
  | _ :: rest => mergedPart_entryNodes rest

mutual

/-- The node of a tree holds no merges. -/
theorem merged_node : ∀ t : Tree, t.node.merged = t.node
  | .text _ => rfl
  | .list items => congrArg (Node.sequence .list) (mergedItems_itemNodes items)
  | .mapping entries => by
    rw [Tree.node, merged, mergedPart_entryNodes, ownPart_entryNodes entries]
    rfl

theorem mergedItems_itemNodes :
    ∀ items : List Tree, mergedItems (Tree.itemNodes items) = Tree.itemNodes items
  | [] => rfl
  | t :: rest => by rw [Tree.itemNodes, mergedItems, merged_node t, mergedItems_itemNodes rest]

theorem ownPart_entryNodes : ∀ entries : List (String × Tree),
    ownPart (Tree.entryNodes entries) = Tree.entryNodes entries
  | [] => rfl
  | (k, t) :: rest => by
    rw [Tree.entryNodes, ownPart, merged_node t, ownPart_entryNodes rest]
    rfl

end

mutual

/-- Nothing keeps the node of a tree from having a value. -/
theorem faults_node (depth : Nat) : ∀ t : Tree, faults depth t.node = []
  | .text _ => rfl
  | .list items => itemFaults_itemNodes (depth + 1) items
  | .mapping entries => entryFaults_entryNodes (depth + 1) entries

theorem itemFaults_itemNodes (depth : Nat) :
    ∀ items : List Tree, itemFaults depth (Tree.itemNodes items) = []
  | [] => rfl
  | t :: rest => by
    rw [Tree.itemNodes, itemFaults, faults_node depth t, itemFaults_itemNodes depth rest]; rfl

theorem entryFaults_entryNodes (depth : Nat) : ∀ entries : List (String × Tree),
    entryFaults depth (Tree.entryNodes entries) = []
  | [] => rfl
  | (k, t) :: rest => by
    rw [Tree.entryNodes, entryFaults, faults_node depth t, entryFaults_entryNodes depth rest]
    rfl

end

/-- A new key goes to the end of a mapping with text keys. -/
theorem insert_of_notMem {before : List (String × Value)} {k : String} (v : Value)
    (hk : k ∉ before.map Prod.fst) :
    Mapping.insert (before.map fun e => (.text e.1, e.2)) (.text k) v =
      (before ++ [(k, v)]).map fun e => (.text e.1, e.2) := by
  induction before with
  | nil => rfl
  | cons e before ih =>
    rw [List.map_cons, List.mem_cons, not_or] at hk
    have halike : (Value.text e.1).alike (.text k) = false := by
      rw [Value.alike_text]
      exact decide_eq_false hk.1
    rw [List.map_cons, Mapping.insert, halike, if_neg Bool.false_ne_true, ih hk.2]
    rfl

mutual

/-- **The value of a node** is that of its tree. -/
theorem toValue_node : ∀ t : Tree, t.Legible → toValue t.node = t.value
  | .text _, _ => rfl
  | .list items, ⟨_, hitems⟩ => congrArg Value.list (toValues_itemNodes items hitems)
  | .mapping entries, ⟨_, hnodup, hentries⟩ =>
    congrArg Value.mapping (toEntries_entryNodes entries hentries [] (by simpa using hnodup))

theorem toValues_itemNodes : ∀ items : List Tree, Tree.LegibleItems items →
    toValues (Tree.itemNodes items) = Tree.itemValues items
  | [], _ => rfl
  | t :: rest, ⟨ht, hrest⟩ => by
    rw [Tree.itemNodes, toValues, toValue_node t ht, toValues_itemNodes rest hrest, Tree.itemValues]

theorem toEntries_entryNodes : ∀ entries : List (String × Tree), Tree.LegibleEntries entries →
    ∀ before : List (String × Value), (before.map Prod.fst ++ entries.map Prod.fst).Nodup →
      toEntries (before.map fun e => (.text e.1, e.2)) (Tree.entryNodes entries) =
        (before.map fun e => (.text e.1, e.2)) ++ Tree.entryValues entries
  | [], _, before, _ => (List.append_nil _).symm
  | (k, t) :: rest, ⟨_, ht, hrest⟩, before, hnodup => by
    -- The keys read so far are others, so the entry goes to the end.
    have hk : k ∉ before.map Prod.fst := by
      intro hmem
      exact (List.nodup_append.mp hnodup).2.2 k hmem k List.mem_cons_self rfl
    have hrest := toEntries_entryNodes rest hrest (before ++ [(k, t.value)]) (by simpa using hnodup)
    rw [Tree.entryNodes, toEntries, toValue_node t ht]
    change toEntries (Mapping.insert _ (.text k) t.value) _ = _
    rw [insert_of_notMem t.value hk, hrest, Tree.entryValues]
    simp

end

end Node

/-- **The round trip.** A legible collection is read as it was written. -/
theorem parse_write {t : Tree} (ht : t.Legible) (hcollection : ∀ s, t ≠ .text s) :
    parse (write t) = .ok t.value := by
  have hreadable : (write t).toList.all isReadable = true := by
    rw [List.all_eq_true]
    intro c hc
    exact isReadable_of_isTyped (List.all_eq_true.mp (typed_write ht) c hc)
  have hread : t.node.read = .ok t.value := by
    unfold Node.read
    dsimp only
    rw [Node.merged_node, Node.faults_node, Node.toValue_node t ht]
    rfl
  unfold parse
  dsimp only
  rw [if_pos hreadable, scan_write ht hcollection, Reader.document?_tokens ht hcollection]
  exact hread

end PipelineRuns.Yaml
