import Mathlib.Data.List.Forall2
import PipelineRuns.Proofs.Placeholders

/-!
# What filling placeholders changes

A value is a tree of lists and mappings, and each place in it is a path of positions from its root
(`Value.at?`). One value is another with its placeholders filled if both have the same places, and
the values at each place differ as `Placeholder.Becomes` says. A text in the form of a placeholder
for a variable that is set becomes the value of the variable. Lists keep their lengths and mappings
their keys in order. Everything else stays, and so do the members of sets and the parts of pairs, to
which no path leads.

Filling commutes with the steps of a path (`Placeholder.at?_fill`), so what it does at a place is
what it does to the value there. In the other direction the changes at all places determine the
value, by induction over the tree (`Placeholder.IsFilled.eq_fill`). So filling a second time changes
nothing as soon as it is true of a single text, for which it is enough that no variable has a value
that starts like a placeholder.

Main statement: `Placeholder.isFilled_iff_eq_fill`.
-/

namespace PipelineRuns

namespace Value

/-- A step down into a value, by the position of an item or of an entry. -/
inductive Step where
  | item (i : Nat)
  | entry (i : Nat)

/-- The value one step down: an item of a list, or what an entry of a mapping holds. -/
def child? : Value → Step → Option Value
  | .list xs, .item i => xs[i]?
  | .mapping m, .entry i => m[i]?.map Prod.snd
  | _, _ => none

/-- The value at a place. -/
def at? (v : Value) : List Step → Option Value
  | [] => some v
  | s :: rest => (v.child? s).bind (fun u => u.at? rest)

end Value

namespace Placeholder

variable {env : Environment} {s t x : String} {u v w : Value} {xs ys : List Value} {m m' : Mapping}

/-! ### Texts -/

/-- A text is as a whole a placeholder with `x` for the name, blanks at its ends included. -/
def IsPlaceholder (s x : String) : Prop :=
  s = braced x ∨ (s = bare x ∧ x.toList.head? ≠ some '\x7b')

/-- What becomes of a text. -/
inductive FillsTo (env : Environment) (s : String) : String → Prop
  | value {x t : String} (hform : IsPlaceholder s x) (hvalue : env.get? (Text.strip x) = some t) :
    FillsTo env s t
  | kept (hform : ∀ x, IsPlaceholder s x → env.get? (Text.strip x) = none) : FillsTo env s s

theorem name?_of_isPlaceholder (h : IsPlaceholder s x) : name? s = some (Text.strip x) :=
  name?_eq_some_iff.mpr ⟨x, rfl, h⟩

/-- The rule of filling leads to what is computed. -/
theorem resolve_of_fillsTo (h : FillsTo env s t) : resolve env s = t := by
  cases h with
  | value hform hvalue =>
    unfold resolve
    rw [name?_of_isPlaceholder hform]
    dsimp only
    rw [hvalue]
    rfl
  | kept hform =>
    -- The text has neither form, or the name that it gives is not set.
    cases hname : name? s with
    | none =>
      unfold resolve
      rw [hname]
    | some n =>
      obtain ⟨x, rfl, hx⟩ := name?_eq_some_iff.mp hname
      exact resolve_of_get?_eq_none hname (hform x hx)

/-- What is computed obeys the rule of filling. -/
theorem fillsTo_resolve (env : Environment) (s : String) : FillsTo env s (resolve env s) := by
  by_cases hset : ∃ x t, IsPlaceholder s x ∧ env.get? (Text.strip x) = some t
  · obtain ⟨x, t, hform, hvalue⟩ := hset
    have hfills : FillsTo env s t := .value hform hvalue
    rwa [resolve_of_fillsTo hfills]
  · have hform : ∀ x, IsPlaceholder s x → env.get? (Text.strip x) = none := by
      intro x hx
      rw [Option.eq_none_iff_forall_ne_some]
      exact fun t ht => hset ⟨x, t, hx, ht⟩
    have hfills : FillsTo env s s := .kept hform
    rwa [resolve_of_fillsTo hfills]

/-- The values of an environment are no placeholders. -/
def PlainValues (env : Environment) : Prop :=
  ∀ name t, env.get? name = some t → t.toList.head? ≠ some '$'

/-- Values that do not begin with a dollar sign are not filled again. -/
theorem plainValues_of_forall (h : ∀ e ∈ env, e.2.toList.head? ≠ some '$') : PlainValues env := by
  intro name t ht
  obtain ⟨before, after, henv, -⟩ := List.lookup_eq_some_iff.mp ht
  refine h (name, t) ?_
  rw [henv]
  exact List.mem_append_cons_self

/-- Filling twice is filling once, if no value looks like a placeholder. -/
theorem resolve_resolve (henv : PlainValues env) (s : String) :
    resolve env (resolve env s) = resolve env s := by
  have hfills := fillsTo_resolve env s
  generalize hresolve : resolve env s = t at hfills ⊢
  -- A value is no placeholder any more, and what was kept is kept again for the same reason.
  cases hfills with
  | value hform hvalue => exact resolve_of_free env (henv _ _ hvalue)
  | kept hform => exact hresolve

/-! ### Places -/

/-- Neither a text nor a list nor a mapping. -/
def IsSkipped : Value → Prop
  | .text _ | .list _ | .mapping _ => False
  | _ => True

/-- What becomes of a value, whatever becomes of the values below it. -/
inductive Becomes (env : Environment) : Value → Value → Prop
  | text {s t : String} (hfills : FillsTo env s t) : Becomes env (.text s) (.text t)
  | list {xs ys : List Value} (hlength : ys.length = xs.length) : Becomes env (.list xs) (.list ys)
  | mapping {m m' : Mapping} (hkeys : m'.map Prod.fst = m.map Prod.fst) : Becomes env (.mapping m)
      (.mapping m')
  | other {v : Value} (hv : IsSkipped v) : Becomes env v v

/-- One value is another with its placeholders filled. -/
def IsFilled (env : Environment) (v w : Value) : Prop :=
  ∀ place, Option.Rel (Becomes env) (v.at? place) (w.at? place)

theorem fillItems_eq_map (env : Environment) (xs : List Value) :
    fillItems env xs = xs.map (fill env) := by
  induction xs with
  | nil => rw [fillItems, List.map_nil]
  | cons v rest ih => rw [fillItems, ih, List.map_cons]

theorem fillEntries_eq_map (env : Environment) (m : Mapping) :
    fillEntries env m = m.map (fun e => (e.1, fill env e.2)) := by
  induction m with
  | nil => rw [fillEntries, List.map_nil]
  | cons e rest ih => rw [fillEntries, ih, List.map_cons]

theorem kinds (v : Value) :
    (∃ s, v = .text s) ∨ (∃ xs, v = .list xs) ∨ (∃ m, v = .mapping m) ∨ IsSkipped v := by
  cases v with
  | text s => exact .inl ⟨s, rfl⟩
  | list xs => exact .inr (.inl ⟨xs, rfl⟩)
  | mapping m => exact .inr (.inr (.inl ⟨m, rfl⟩))
  | _ => exact .inr (.inr (.inr trivial))

theorem fill_of_isSkipped (env : Environment) (h : IsSkipped v) : fill env v = v := by
  rw [fill]
  all_goals
    rintro _ rfl
    exact h

theorem child?_of_isSkipped (h : IsSkipped v) (step : Value.Step) : v.child? step = none := by
  unfold Value.child?
  split
  · exact h.elim
  · exact h.elim
  · rfl

/-- At each value, filling does what the rule says of its kind. -/
theorem becomes_fill (env : Environment) (v : Value) : Becomes env v (fill env v) := by
  obtain ⟨s, rfl⟩ | ⟨xs, rfl⟩ | ⟨m, rfl⟩ | hv := kinds v
  · rw [fill]
    exact .text (fillsTo_resolve env s)
  · rw [fill, fillItems_eq_map]
    exact .list (List.length_map _)
  · rw [fill, fillEntries_eq_map]
    refine .mapping ?_
    rw [List.map_map]
    rfl
  · rw [fill_of_isSkipped env hv]
    exact .other hv

/-- Where the values of variables are plain, nothing more becomes of a value that is filled. -/
theorem becomes_self_fill (henv : PlainValues env) (v : Value) :
    Becomes env (fill env v) (fill env v) := by
  obtain ⟨s, rfl⟩ | ⟨xs, rfl⟩ | ⟨m, rfl⟩ | hv := kinds v
  · have hagain := fillsTo_resolve env (resolve env s)
    rw [resolve_resolve henv] at hagain
    rw [fill]
    exact .text hagain
  · rw [fill]
    exact .list rfl
  · rw [fill]
    exact .mapping rfl
  · rw [fill_of_isSkipped env hv]
    exact .other hv

/-- Filling goes through a tree step by step: the part at a step is filled. -/
theorem child?_fill (env : Environment) (v : Value) (step : Value.Step) :
    (fill env v).child? step = (v.child? step).map (fill env) := by
  obtain ⟨s, rfl⟩ | ⟨xs, rfl⟩ | ⟨m, rfl⟩ | hv := kinds v
  · rw [fill]
    rfl
  · rw [fill, fillItems_eq_map]
    cases step with
    | item i => exact List.getElem?_map
    | entry i => rfl
  · rw [fill, fillEntries_eq_map]
    cases step with
    | item i => rfl
    | entry i =>
      change ((m.map _)[i]?).map Prod.snd = (m[i]?.map Prod.snd).map (fill env)
      rw [List.getElem?_map, Option.map_map, Option.map_map]
      rfl
  · rw [fill_of_isSkipped env hv, child?_of_isSkipped hv]
    rfl

/-- Filling a value fills what stands at each place. -/
theorem at?_fill (env : Environment) (v : Value) (place : List Value.Step) :
    (fill env v).at? place = (v.at? place).map (fill env) := by
  -- By induction on the path, for all values at once, as each step leads to another one.
  induction place generalizing v with
  | nil => rfl
  | cons step rest ih =>
    change ((fill env v).child? step).bind (fun u => u.at? rest) =
      ((v.child? step).bind (fun u => u.at? rest)).map _
    rw [child?_fill]
    cases v.child? step with
    | none => rfl
    | some u => exact ih u

/-- A filled tree is filled at each of its places. -/
theorem isFilled_fill (env : Environment) (v : Value) : IsFilled env v (fill env v) := by
  intro place
  rw [at?_fill]
  cases v.at? place with
  | none => exact .none
  | some u => exact .some (becomes_fill env u)

/-! ### The changes determine the value -/

theorem IsFilled.becomes (h : IsFilled env v w) : Becomes env v w := by
  cases h [] with
  | some hroot => exact hroot

/-- Below a place, the values are filled again. -/
theorem IsFilled.child (h : IsFilled env v w) (step : Value.Step) :
    Option.Rel (IsFilled env) (v.child? step) (w.child? step) := by
  -- The path of this one step is there in both values or in none.
  have hroot := h [step]
  unfold Value.at? at hroot
  cases hv : v.child? step with
  | none =>
    cases hw : w.child? step with
    | none => exact .none
    | some u =>
      rw [hv, hw] at hroot
      cases hroot
  | some u =>
    cases hw : w.child? step with
    | none =>
      rw [hv, hw] at hroot
      cases hroot
    | some u' =>
      refine .some (fun place => ?_)
      have hplace := h (step :: place)
      unfold Value.at? at hplace
      rwa [hv, hw] at hplace

/-- The items of a list that is filled are filled. -/
theorem IsFilled.items (h : IsFilled env (.list xs) w) :
    ∃ ys, w = .list ys ∧ List.Forall₂ (IsFilled env) xs ys := by
  cases h.becomes with
  | @list _ ys hlength =>
    refine ⟨ys, rfl, List.forall₂_iff_get.mpr ⟨hlength.symm, fun i hi hi' => ?_⟩⟩
    have hitem := h.child (.item i)
    change Option.Rel (IsFilled env) xs[i]? ys[i]? at hitem
    rw [List.getElem?_eq_getElem hi, List.getElem?_eq_getElem hi'] at hitem
    cases hitem with
    | some hvalue => exact hvalue
  | other hv => exact hv.elim

/-- The entries of a mapping that is filled have the same keys, and what they hold is filled. -/
theorem IsFilled.entries (h : IsFilled env (.mapping m) w) :
    ∃ m', w = .mapping m' ∧ List.Forall₂ (fun e e' => e'.1 = e.1 ∧ IsFilled env e.2 e'.2) m m' := by
  cases h.becomes with
  | @mapping _ m' hkeys =>
    have hlength := congrArg List.length hkeys
    rw [List.length_map, List.length_map] at hlength
    refine ⟨m', rfl, List.forall₂_iff_get.mpr ⟨hlength.symm, fun i hi hi' => ⟨?_, ?_⟩⟩⟩
    · have hkey := congrArg (fun ks => ks[i]?) hkeys
      rw [List.getElem?_map, List.getElem?_map, List.getElem?_eq_getElem hi,
        List.getElem?_eq_getElem hi'] at hkey
      exact Option.some.inj hkey
    · have hvalue := h.child (.entry i)
      change Option.Rel (IsFilled env) (m[i]?.map Prod.snd) (m'[i]?.map Prod.snd) at hvalue
      rw [List.getElem?_eq_getElem hi, List.getElem?_eq_getElem hi'] at hvalue
      cases hvalue with
      | some hfilled => exact hfilled
  | other hv => exact hv.elim

-- The induction follows the constructors of values. At each of them the root tells the shape, and
-- the places below it are those of the parts.
mutual

/-- No other tree is: by induction on the tree, in step with its lists and mappings. -/
theorem IsFilled.eq_fill : ∀ (v : Value) {w : Value}, IsFilled env v w → w = fill env v
  | .text s, w, h => by
    rw [fill]
    cases h.becomes with
    | text hfills => rw [resolve_of_fillsTo hfills]
    | other hv => exact hv.elim
  | .list xs, w, h => by
    obtain ⟨ys, rfl, hitems⟩ := h.items
    rw [fill, eq_fillItems xs hitems]
  | .mapping m, w, h => by
    obtain ⟨m', rfl, hentries⟩ := h.entries
    rw [fill, eq_fillEntries m hentries]
  | .null, _, h | .bool _, _, h | .int _, _, h | .float _, _, h | .bytes _, _, h | .date _, _, h
      | .timestamp _ _, _, h
  | .pair _ _, _, h | .set _, _, h => by
    cases h.becomes with
    | other hv => rw [fill_of_isSkipped env hv]

theorem eq_fillItems :
    ∀ (xs : List Value) {ys : List Value}, List.Forall₂ (IsFilled env) xs ys → ys = fillItems env xs
  | [], _, .nil => by rw [fillItems]
  | v :: rest, _, .cons hv hrest => by
    rw [fillItems, IsFilled.eq_fill v hv, eq_fillItems rest hrest]

theorem eq_fillEntries : ∀ (m : Mapping) {m' : Mapping},
    List.Forall₂ (fun e e' => e'.1 = e.1 ∧ IsFilled env e.2 e'.2) m m' → m' = fillEntries env m
  | [], _, .nil => by rw [fillEntries]
  | (k, v) :: rest, (k', w) :: rest', .cons ⟨hkey, hvalue⟩ hrest => by
    obtain rfl : k' = k := hkey
    rw [fillEntries, ← IsFilled.eq_fill v hvalue, ← eq_fillEntries rest hrest]

end

/-- **What filling changes.** A value is what comes of another by filling its placeholders just if
it has the same places, and at each of them a text with the value of the variable that it stands
for, a list as long, a mapping with the same keys in order, or the same value. Where no variable has
a value that starts like a placeholder, filling again changes nothing. -/
theorem isFilled_iff_eq_fill (env : Environment) (v : Value) :
    (∀ w, IsFilled env v w ↔ w = fill env v) ∧
      (PlainValues env → fill env (fill env v) = fill env v) := by
  refine ⟨fun w => ⟨IsFilled.eq_fill v, ?_⟩, fun henv => ?_⟩
  · rintro rfl
    exact isFilled_fill env v
  · -- The value that is filled already is filled again by the same changes, which are none.
    have hagain : IsFilled env (fill env v) (fill env v) := by
      intro place
      rw [at?_fill]
      cases v.at? place with
      | none => exact .none
      | some u => exact .some (becomes_self_fill henv u)
    exact (IsFilled.eq_fill (fill env v) hagain).symm

/-- An environment with one variable. -/
def oneVariable : Environment := [("TOKEN", "abc")]

/-- Placeholders of both forms, one of them with blanks, below texts that are none. -/
def nested : Value :=
  .mapping [(.text "$TOKEN",
    .list [.text "$\x7b TOKEN \x7d", .text "$TOKEN", .text "$TOKEN and more", .text "$"]),
    (.text "n", .int 3)]

/-- The main statement on this value: the key stays, and so do the texts that only begin like
placeholders. -/
theorem fill_nested :
    PlainValues oneVariable ∧
      fill oneVariable nested = .mapping [(.text "$TOKEN",
        .list [.text "abc", .text "abc", .text "$TOKEN and more", .text "$"]),
          (.text "n", .int 3)] ∧
      fill oneVariable (fill oneVariable nested) = fill oneVariable nested := by
  have hplain : PlainValues oneVariable := plainValues_of_forall (by decide)
  exact ⟨hplain, by rfl, (isFilled_iff_eq_fill oneVariable nested).2 hplain⟩

-- A value that is itself a placeholder is looked up by a second run.
example : resolve [("A", "$B"), ("B", "b")] (resolve [("A", "$B"), ("B", "b")] "$A") = "b" := by
  decide

end Placeholder

end PipelineRuns
