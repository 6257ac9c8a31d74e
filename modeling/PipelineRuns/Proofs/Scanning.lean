import PipelineRuns.Proofs.PlainScalars

/-!
# Tokens of a written tree

A legible tree is cut into the tokens that tell its structure (`scan_write`). The scanner is
followed through `Scanner.Yields`: from a state, it goes on to the end of the text and has these
tokens then. The relation knows steps alone, and that each of them leaves less of the text, so fuel
is dealt with once (`Scanner.Yields.run_eq`).

Every lemma stands in front of what follows: what the state after a piece of text yields, the state
before it yields as well. For this to be one state, it may not matter how the last line ended. A
word takes the line break and the next margin with it and a quoted text does not; a scalar leaves a
candidate for a key behind where one was allowed. None of this is seen by the next step
(`Scanner.yields_of_token`, `Scanner.yields_of_feed`), so after every line the scanner is at the
start of the next one, without a candidate, and a key is allowed.

The induction is on the tree, with one statement for each form in which a part of it is written:
after a colon, after a dash, as lines of a list, as lines of a mapping. Columns carry it: what
follows a part stands no deeper than what holds the part (`Scanner.Follows`), so that is where its
block ends (`Scanner.yields_close`).

Main statement: `scan_write`.
-/

namespace PipelineRuns.Yaml

/-! ### Legible trees and their tokens -/

/-- A key of one word that is short enough to be recognised at its colon. -/
structure IsKey (k : String) : Prop where
  word : IsPlainWord k
  length : k.toList.length ≤ Scanner.longestKey

instance (k : String) : Decidable (IsKey k) :=
  decidable_of_iff (IsPlainWord k ∧ k.toList.length ≤ Scanner.longestKey)
    ⟨fun ⟨hword, hlength⟩ => ⟨hword, hlength⟩, fun h => ⟨h.word, h.length⟩⟩

namespace Tree

mutual

/-- A tree that is written in a notation that reads back: its texts are single words or go between
single quotes, no collection is empty, and the keys of a mapping are different words. -/
def Legible : Tree → Prop
  | .text s => IsPlainWord s ∨ IsQuoted s
  | .list items => items ≠ [] ∧ LegibleItems items
  | .mapping entries => entries ≠ [] ∧ (entries.map Prod.fst).Nodup ∧ LegibleEntries entries

/-- Items of which each one is legible. -/
def LegibleItems : List Tree → Prop
  | [] => True
  | t :: rest => Legible t ∧ LegibleItems rest

/-- Entries of which each key and value is legible. -/
def LegibleEntries : List (String × Tree) → Prop
  | [] => True
  | (k, t) :: rest => IsKey k ∧ Legible t ∧ LegibleEntries rest

end

mutual

/-- Whether a tree is legible can be computed. -/
def decideLegible : (t : Tree) → Decidable t.Legible
  | .text s => inferInstanceAs (Decidable (IsPlainWord s ∨ IsQuoted s))
  | .list [] => isFalse (fun h => h.1 rfl)
  | .list (t :: rest) =>
    have := decideItems (t :: rest)
    decidable_of_iff (LegibleItems (t :: rest)) ⟨fun h => ⟨List.cons_ne_nil _ _, h⟩, fun h => h.2⟩
  | .mapping [] => isFalse (fun h => h.1 rfl)
  | .mapping (e :: rest) =>
    have := decideEntries (e :: rest)
    decidable_of_iff (((e :: rest).map Prod.fst).Nodup ∧ LegibleEntries (e :: rest))
      ⟨fun h => ⟨List.cons_ne_nil _ _, h⟩, fun h => h.2⟩

/-- Whether items are legible can be computed. -/
def decideItems : (items : List Tree) → Decidable (LegibleItems items)
  | [] => isTrue trivial
  | t :: rest =>
    have := decideLegible t
    have := decideItems rest
    inferInstanceAs (Decidable (Legible t ∧ LegibleItems rest))

/-- Whether entries are legible can be computed. -/
def decideEntries : (entries : List (String × Tree)) → Decidable (LegibleEntries entries)
  | [] => isTrue trivial
  | (k, t) :: rest =>
    have := decideLegible t
    have := decideEntries rest
    inferInstanceAs (Decidable (IsKey k ∧ Legible t ∧ LegibleEntries rest))

end

instance (t : Tree) : Decidable t.Legible := decideLegible t

mutual

/-- The tokens of a tree. A list that stands in the column of the key before it has none for its
start and end. -/
def tokens (afterKey : Bool) : Tree → List Token
  | .text s => [.scalar s (Written.style s = .plain)]
  | .list items =>
    if afterKey then itemTokens items else .blockSequenceStart :: (itemTokens items ++ [.blockEnd])
  | .mapping entries => .blockMappingStart :: (entryTokens entries ++ [.blockEnd])

/-- The tokens of items. -/
def itemTokens : List Tree → List Token
  | [] => []
  | t :: rest => .blockEntry :: (tokens false t ++ itemTokens rest)

/-- The tokens of entries. -/
def entryTokens : List (String × Tree) → List Token
  | [] => []
  | (k, t) :: rest => .key :: .scalar k true :: .value :: (tokens true t ++ entryTokens rest)

end

end Tree

/-! ### Runs of the scanner -/

namespace Scanner

/-- How much of the text is left after the gap at the place. -/
def remaining (s : Scanner) : Nat := (s.place.rest.dropWhile isGap).length

theorem remaining_le (s : Scanner) : s.remaining ≤ s.place.rest.length :=
  (List.dropWhile_sublist _).length_le

/-- From a state, the scanner goes on to the end of the text and has these tokens then, the last one
first. -/
inductive Yields : Scanner → List Token → Prop where
  | last {s s' : Scanner} (h : s.step = .ok s')
      (hend : s'.tokens.head? = some .streamEnd) : Yields s s'.tokens
  | more {s s' : Scanner} {out : List Token} (h : s.step = .ok s')
      (hgoes : s'.tokens.head? ≠ some .streamEnd) (hshorter : s'.remaining < s.remaining)
      (hrest : Yields s' out) : Yields s out

/-- The rest of the text is fuel enough. -/
theorem Yields.run_eq {s : Scanner} {out : List Token} (h : Yields s out) {fuel : Nat}
    (hfuel : s.remaining < fuel) : run fuel s = out := by
  induction h generalizing fuel with
  | last h hend =>
    obtain ⟨fuel, rfl⟩ : ∃ n, fuel = n + 1 := ⟨fuel - 1, by omega⟩
    rw [run, h]
    exact if_pos hend
  | more h hgoes hshorter _ ih =>
    obtain ⟨fuel, rfl⟩ : ∃ n, fuel = n + 1 := ⟨fuel - 1, by omega⟩
    rw [run, h]
    exact (if_neg hgoes).trans (ih (by omega))

/-- What a state yields depends on its next step only. -/
theorem Yields.of_step_eq {s s' : Scanner} {out : List Token} (h : Yields s' out)
    (hstep : s.step = s'.step) (hrest : s'.remaining ≤ s.remaining) : Yields s out := by
  cases h with
  | last h hend => exact .last (hstep.trans h) hend
  | more h hgoes hshorter hout =>
    exact .more (hstep.trans h) hgoes (Nat.lt_of_lt_of_le hshorter hrest) hout

/-- A state outside flow collections. -/
def inBlock (c : Cursor) (ts : List Token) (indent : Int) (indents : List Int)
    (candidate : Option Candidate) (allow : Bool) : Scanner where
  place := c
  tokens := ts
  count := ts.length
  indent := indent
  indents := indents
  candidate := candidate
  allowKey := allow

variable {c c' : Cursor} {ts out : List Token} {indent : Int} {indents : List Int}
  {allow allow' : Bool} {r u v : List Char} {index line column m n fuel : Nat}

/-- What a step does at the place of its token. -/
def act (s : Scanner) : Step :=
  let s := s.unwind (s.place.column : Int)
  match s.place.peek with
  | none => s.endStream
  | some ch => s.token ch

/-- A text that starts with a token, or is at its end. -/
def startsToken (r : List Char) : Bool := Scalar.startsSolid r && r.head? ≠ some '#'

theorem remaining_eq {s : Scanner} (hrest : s.place.rest = Written.margin m ++ r)
    (hr : startsToken r = true) : s.remaining = r.length := by
  have hkept : r.dropWhile isGap = r := by
    cases r with
    | nil => rfl
    | cons c r =>
      simp only [startsToken, Scalar.startsSolid, List.head?_cons, Option.all_some,
        Bool.and_eq_true, Bool.not_eq_true', Bool.or_eq_false_iff, decide_eq_false_iff_not] at hr
      have hfeed : c ≠ '\n' := by
        rintro rfl
        exact absurd hr.1.2 (by decide)
      exact List.dropWhile_cons_of_neg (by simp [isGap, hr.1.1.1, hfeed])
  unfold remaining
  rw [hrest, List.dropWhile_append_of_pos (fun c hc => by rw [List.eq_of_mem_replicate hc]; rfl),
    hkept]

theorem step_eq {k? : Option Candidate} : (inBlock c ts indent indents k? allow).step =
    dropStale (((inBlock c ts indent indents k? allow).moveTo
      (toNextToken false (c.rest.length + 1) allow c).2).keyAllowed
      (toNextToken false (c.rest.length + 1) allow c).1) >>= act := rfl

theorem skipComment_of_ne (hr : r.head? ≠ some '#') :
    Cursor.skipComment ⟨r, index, line, column⟩ = ⟨r, index, line, column⟩ := by
  have hat : Cursor.isAt ⟨r, index, line, column⟩ '#' = false := decide_eq_false hr
  unfold Cursor.skipComment
  rw [hat, if_neg Bool.false_ne_true]

theorem skipSpaces_margin (hr : Scalar.startsSolid r = true) :
    Cursor.skipSpaces ⟨Written.margin m ++ r, index, line, column⟩ =
      ⟨r, index + m, line, column + m⟩ := by
  have hspace : ∀ c ∈ Written.margin m, decide (c = ' ') = true :=
    fun c hc => decide_eq_true (List.eq_of_mem_replicate hc)
  have hstop : r.head?.all (fun c => !decide (c = ' ')) = true := by
    cases r with
    | nil => rfl
    | cons c r =>
      simp only [Scalar.startsSolid, List.head?_cons, Option.all_some, Bool.not_eq_true',
        Bool.or_eq_false_iff] at hr ⊢
      exact hr.1.1
  unfold Cursor.skipSpaces Cursor.skip
  rw [Cursor.span_of_isInline hspace (fun _ => Scalar.isInline_of_mem_spaces) hstop]
  simp [Written.margin]

/-- The next token stands after the margin. -/
theorem toNextToken_token (hr : startsToken r = true) :
    toNextToken false (fuel + 1) allow ⟨Written.margin m ++ r, index, line, column⟩ =
      (allow, ⟨r, index + m, line, column + m⟩) := by
  unfold startsToken at hr
  rw [Bool.and_eq_true, decide_eq_true_eq] at hr
  rw [toNextToken, skipSpaces_margin hr.1, skipComment_of_ne hr.2]
  dsimp only
  rw [Scalar.lineBreak_of_startsSolid hr.1]
  rfl

/-- On the next line a key is allowed. -/
theorem toNextToken_feed (hr : startsToken r = true) :
    toNextToken false (fuel + 2) allow ⟨'\n' :: (Written.margin m ++ r), index, line, column⟩ =
      (true, ⟨r, index + 1 + m, line + 1, m⟩) := by
  have hspaces : Cursor.skipSpaces ⟨'\n' :: (Written.margin m ++ r), index, line, column⟩ =
      ⟨'\n' :: (Written.margin m ++ r), index, line, column⟩ := by
    unfold Cursor.skipSpaces Cursor.skip
    rw [Cursor.span_nil rfl]
  have hnext :
      toNextToken false (fuel + 1) (allow || !false)
      ⟨Written.margin m ++ r, index + 1, line + 1, 0⟩ =
      (allow || !false, ⟨r, index + 1 + m, line + 1, 0 + m⟩) := toNextToken_token hr
  rw [toNextToken, hspaces, skipComment_of_ne (by simp)]
  dsimp only
  rw [Cursor.lineBreak_feed]
  simpa using hnext

/-- A candidate on a line that has ended is given up, where not only a key can stand. -/
theorem step_eq_act {k? : Option Candidate}
    (hnext : toNextToken false (c.rest.length + 1) allow c = (allow', c'))
    (hpassed : ∀ k, k? = some k → k.line < c'.line ∧ k.required = false) :
    (inBlock c ts indent indents k? allow).step =
      (inBlock c' ts indent indents none allow').act := by
  have hdrop : dropStale (((inBlock c ts indent indents k? allow).moveTo c').keyAllowed allow') =
      .ok (inBlock c' ts indent indents none allow') := by
    cases k? with
    | none => rfl
    | some k =>
      obtain ⟨hline, hrequired⟩ := hpassed k rfl
      -- The candidate is on a line before, and it was not required, so it is given up without a
      -- fault.
      have hstale :
          isStale (((inBlock c ts indent indents (some k) allow).moveTo c').keyAllowed allow') k =
            true := by
        have hne : k.line ≠ c'.line := Nat.ne_of_lt hline
        simp [isStale, keyAllowed, moveTo, inBlock, hne]
      have hkept :
          kept (((inBlock c ts indent indents (some k) allow).moveTo c').keyAllowed allow')
            (some k) = .ok none := by
        rw [kept, if_pos hstale, hrequired]
        rfl
      unfold dropStale
      exact congrArg (· >>= _) hkept
  rw [step_eq, hnext]
  exact congrArg (· >>= act) hdrop

/-- **A step inside a line** is that of the token after the blanks. -/
theorem step_token (hr : startsToken r = true) :
    (inBlock ⟨Written.margin m ++ r, index, line, column⟩ ts indent indents none allow).step =
      (inBlock ⟨r, index + m, line, column + m⟩ ts indent indents none allow).act :=
  step_eq_act (toNextToken_token hr) (fun _ hk => nomatch hk)

/-- **A step over the end of a line** is that of the first token of the next line, without a
candidate. -/
theorem step_feed {k? : Option Candidate} (hr : startsToken r = true)
    (hpassed : ∀ k, k? = some k → k.line ≤ line ∧ k.required = false) :
    (inBlock ⟨'\n' :: (Written.margin m ++ r), index, line, column⟩ ts indent indents k?
      allow).step =
      (inBlock ⟨r, index + 1 + m, line + 1, m⟩ ts indent indents none true).act :=
  step_eq_act (toNextToken_feed hr)
    (fun k hk => ⟨Nat.lt_succ_of_le (hpassed k hk).1, (hpassed k hk).2⟩)

/-- A candidate is kept on its line. -/
theorem step_eq_act_of_kept {k : Candidate}
    (hnext : toNextToken false (c.rest.length + 1) allow c = (allow', c'))
    (hline : k.line = c'.line) (hnear : c'.index - k.index ≤ longestKey) :
    (inBlock c ts indent indents (some k) allow).step =
      (inBlock c' ts indent indents (some k) allow').act := by
  have hdrop :
      dropStale (((inBlock c ts indent indents (some k) allow).moveTo c').keyAllowed allow') =
      .ok (inBlock c' ts indent indents (some k) allow') := by
    -- The candidate is on this line and near enough, so it is kept.
    have hfresh :
        isStale (((inBlock c ts indent indents (some k) allow).moveTo c').keyAllowed allow') k =
          false := by
      change (decide (k.line ≠ c'.line) || decide (longestKey < c'.index - k.index)) = false
      rw [decide_eq_false (not_not_intro hline), decide_eq_false (Nat.not_lt.mpr hnear)]
      rfl
    have hkept :
        kept (((inBlock c ts indent indents (some k) allow).moveTo c').keyAllowed allow') (some k) =
        .ok (some k) := by
      rw [kept, hfresh]
      rfl
    unfold dropStale
    exact congrArg (· >>= _) hkept
  rw [step_eq, hnext]
  exact congrArg (· >>= act) hdrop

/-! ### What a token is -/

variable {k? : Option Candidate} {ch : Char} {w : List Char}

theorem act_of_le {s : Scanner} (hrest : s.place.rest = ch :: r)
    (hindent : s.indent ≤ (s.place.column : Int)) : s.act = s.token ch := by
  have hkept : s.unwind (s.place.column : Int) = s := by
    unfold unwind
    split
    · rfl
    · cases s.indents with
      | nil => rfl
      | cons b indents => exact if_neg (Int.not_lt.mpr hindent)
  unfold act
  rw [hkept]
  dsimp only
  unfold Cursor.peek
  rw [hrest]
  rfl

/-- **The end of a block.** Before a place that is less indented, the innermost block ends. -/
theorem act_close {b : Int} (hlt : (c.column : Int) < indent) :
    (inBlock c ts indent (b :: indents) k? allow).act =
      (inBlock c (.blockEnd :: ts) b indents k? allow).act := by
  have hclosed : (inBlock c ts indent (b :: indents) k? allow).unwind (c.column : Int) =
      (inBlock c (.blockEnd :: ts) b indents k? allow).unwind (c.column : Int) := by
    change closeBlocks (c.column : Int) (inBlock c ts indent (b :: indents) k? allow)
      (b :: indents) = _
    rw [closeBlocks]
    exact if_pos hlt
  unfold act
  dsimp only
  exact congrArg (fun s : Scanner => match s.place.peek with
    | none => s.endStream
    | some ch => s.token ch) hclosed

theorem token_quote {s : Scanner} (hrest : s.place.rest = '\'' :: r) :
    s.token '\'' = s.quotedScalar '\'' := by
  have hdash : s.place.atMark '-' = false := by simp [Cursor.atMark, hrest]
  have hdot : s.place.atMark '.' = false := by simp [Cursor.atMark, hrest]
  unfold token
  rw [hdash, hdot]
  simp

theorem token_dash {s : Scanner} (hrest : s.place.rest = '-' :: ' ' :: r) :
    s.token '-' = s.blockEntry := by
  have hdash : s.place.atMark '-' = false := by simp [Cursor.atMark, hrest]
  have hdot : s.place.atMark '.' = false := by simp [Cursor.atMark, hrest]
  have hspaced : endsWord (s.place.peekAt 1) = true := by simp [Cursor.peekAt, hrest, endsWord]
  unfold token
  rw [hdash, hdot, hspaced]
  simp

theorem token_colon {s : Scanner} (hrest : s.place.rest = ':' :: r) (hr : endsWord r.head? = true) :
    s.token ':' = s.value := by
  have hdash : s.place.atMark '-' = false := by simp [Cursor.atMark, hrest]
  have hdot : s.place.atMark '.' = false := by simp [Cursor.atMark, hrest]
  have hspaced : endsWord (s.place.peekAt 1) = true := by
    unfold Cursor.peekAt
    rw [hrest, List.getElem?_cons_succ, ← List.head?_eq_getElem?]
    exact hr
  unfold token
  rw [hdash, hdot, hspaced]
  simp

/-- What follows a word does not complete a line that separates documents. -/
theorem take_three_ne {x : Char} (hword : (ch :: w).take 3 ≠ [x, x, x]) (hu : u.head? ≠ some x) :
    (ch :: (w ++ u)).take 3 ≠ [x, x, x] := by
  intro h
  match w, hword, h with
  | [], _, h =>
    cases u with
    | nil => simp at h
    | cons d u =>
      exact hu (congrArg some (by simpa using (by simpa using h : ch = x ∧ d = x ∧ _).2.1))
  | [d], _, h =>
    cases u with
    | nil => simp at h
    | cons e u =>
      obtain ⟨-, -, he⟩ : ch = x ∧ d = x ∧ e = x := by simpa using h
      exact hu (congrArg some he)
  | d :: e :: w, hword, h => exact hword (by simpa using h)

theorem head?_ne_of_stopsPlain {x : Char} (hu : Scalar.stopsPlain u = true)
    (hx : x = '-' ∨ x = '.') : u.head? ≠ some x := by
  cases u with
  | nil => simp
  | cons c u =>
    simp only [Scalar.stopsPlain, Bool.or_eq_true, Bool.and_eq_true, decide_eq_true_eq] at hu
    rcases hx with rfl | rfl <;> rcases hu with (rfl | rfl) | ⟨rfl, -⟩ <;> simp

/-- The scanner stands at a word: its first character is no mark by itself, and a mark that asks for
a blank has none after it. -/
structure AtWord (s : Scanner) (ch : Char) : Prop where
  startsWord : endsWord (some ch) = false
  unmarked : Written.isLeadingMark ch = false
  unspaced : ch = '?' ∨ ch = ':' ∨ ch = '-' → endsWord (s.place.peekAt 1) = false
  noDashes : s.place.atMark '-' = false
  noDots : s.place.atMark '.' = false
  outside : s.inFlow = false

theorem atWord_of_word {s : Scanner} {k : String} (hk : IsPlainWord k)
    (hu : Scalar.stopsPlain u = true) (hw : k.toList = ch :: w)
    (hrest : s.place.rest = ch :: (w ++ u)) (hflow : s.outer = []) : AtWord s ch := by
  obtain ⟨hstart, -, hdashes, hdots⟩ := hk.noMarks hw
  rw [Written.startsWithMark, Bool.or_eq_false_iff] at hstart
  obtain ⟨hmark, hspaced⟩ := hstart
  obtain ⟨htyped, hgap⟩ := hk.word ch (by rw [hw]; exact List.mem_cons_self)
  refine ⟨endsWord_of_isTyped htyped hgap, hmark, ?_, ?_, ?_, ?_⟩
  · -- Such a mark is followed by a character of the word, as the notation of the word was chosen by
    -- this.
    intro hch
    have hends : endsWord w.head? = false := by
      rcases hch with rfl | rfl | rfl <;> simpa using hspaced
    unfold Cursor.peekAt
    rw [hrest, List.getElem?_cons_succ, ← List.head?_eq_getElem?]
    cases w with
    | nil => exact absurd hends (by decide)
    | cons d w => exact hends
  · unfold Cursor.atMark
    rw [hrest, decide_eq_false (take_three_ne hdashes (head?_ne_of_stopsPlain hu (.inl rfl))),
      Bool.false_and]
  · unfold Cursor.atMark
    rw [hrest, decide_eq_false (take_three_ne hdots (head?_ne_of_stopsPlain hu (.inr rfl))),
      Bool.false_and]
  · unfold inFlow
    rw [hflow]
    rfl

namespace AtWord

variable {s : Scanner}

theorem ne (h : AtWord s ch) {d : Char} (hd : Written.isLeadingMark d = true) : ch ≠ d := by
  rintro rfl
  exact absurd (h.unmarked.symm.trans hd) Bool.false_ne_true

theorem not_spaced (h : AtWord s ch) {d : Char} (hd : d = '?' ∨ d = ':' ∨ d = '-') :
    (decide (ch = d) && endsWord (s.place.peekAt 1)) = false := by
  by_cases hch : ch = d
  · rw [h.unspaced (by rw [hch]; exact hd), Bool.and_false]
  · rw [decide_eq_false hch, Bool.false_and]

/-- A plain scalar may start with the character. -/
theorem startsPlain (h : AtWord s ch) : s.startsPlain ch = true := by
  -- The characters that a plain scalar may not start with are marks, or ask for a blank.
  have hlisted : "-?:,[]\x7b\x7d#&*!|>'\"%@`".toList.all
      (fun d => (d = '?' ∨ d = ':' ∨ d = '-') || Written.isLeadingMark d) = true := by decide
  unfold Scanner.startsPlain
  rw [h.startsWord, h.outside, Bool.or_false]
  split
  · next hcontains =>
    have hfound := List.all_eq_true.mp hlisted ch (by simpa using hcontains)
    rw [h.unmarked, Bool.or_false, decide_eq_true_eq] at hfound
    rw [h.unspaced hfound]
    rcases hfound with rfl | rfl | rfl <;> rfl
  · rfl

/-- **A word starts a plain scalar.** -/
theorem token_eq (h : AtWord s ch) : s.token ch = s.plainScalar := by
  unfold token
  rw [h.noDashes, h.noDots, h.outside, h.startsPlain]
  simp only [h.not_spaced (d := '-') (by simp), h.not_spaced (d := '?') (by simp),
    h.not_spaced (d := ':') (by simp), decide_eq_false (h.ne (d := '%') (by decide)),
    decide_eq_false (h.ne (d := '|') (by decide)), decide_eq_false (h.ne (d := '>') (by decide)),
    if_neg (h.ne (d := '[') (by decide)), if_neg (h.ne (d := '\x7b') (by decide)),
    if_neg (h.ne (d := ']') (by decide)), if_neg (h.ne (d := '\x7d') (by decide)),
    if_neg (h.ne (d := ',') (by decide)), if_neg (h.ne (d := '*') (by decide)),
    if_neg (h.ne (d := '&') (by decide)), if_neg (h.ne (d := '!') (by decide)),
    if_neg (h.ne (d := '\'') (by decide)), if_neg (h.ne (d := '"') (by decide)), Bool.false_and,
    Bool.and_false, Bool.false_or, Bool.false_eq_true, if_false, if_true]

end AtWord

/-! ### One token -/

/-- How a block at a column stands to the place: it is the innermost one, or begins there, with a
token that tells. -/
inductive Opens (t : Token) (n : Nat) (b : Int) (indents : List Int) :
    List Token → List Int → Prop where
  | same (h : b = n) : Opens t n b indents [] indents
  | deeper (h : b < n) : Opens t n b indents [t] (b :: indents)

/-- The text after a value: the next line stands no deeper than column `n`, or there is none. -/
def Follows (n : Nat) (v : List Char) : Prop :=
  ∃ m r, v = Written.margin m ++ r ∧ m ≤ n ∧ startsToken r = true

theorem Follows.mono {n' : Nat} (h : Follows n v) (hle : n ≤ n') : Follows n' v := by
  obtain ⟨m, r, hv, hm, hr⟩ := h
  exact ⟨m, r, hv, Nat.le_trans hm hle, hr⟩

variable {b : Int} {start : List Token} {indents' : List Int} {x : List Char}

theorem Opens.le {t : Token} (h : Opens t n b indents start indents') : b ≤ n := by
  cases h with
  | same h => exact Int.le_of_eq h
  | deeper h => exact Int.le_of_lt h

theorem blockEntry_eq (hcolumn : c.column = n)
    (h : Opens .blockSequenceStart n b indents start indents') :
    (inBlock c ts b indents none true).blockEntry =
      .ok (inBlock (Cursor.advance 1 c) (.blockEntry :: (start ++ ts)) n indents' none true) := by
  subst hcolumn
  cases h with
  | same h =>
    -- The dash continues the list of its column.
    subst h
    have henter : (inBlock c ts c.column indents none true).enterHere .blockSequenceStart =
        .ok (inBlock c ts c.column indents none true) := by
      change (if decide ((c.column : Int) < c.column) = true then _ else _) = _
      rw [decide_eq_false (Int.lt_irrefl _)]
      rfl
    unfold blockEntry
    rw [henter]
    rfl
  | deeper h =>
    have henter : (inBlock c ts b indents none true).enterHere .blockSequenceStart =
        .ok (inBlock c (.blockSequenceStart :: ts) c.column (b :: indents) none true) := by
      change (if decide (b < c.column) = true then _ else _) = _
      rw [decide_eq_true h]
      rfl
    unfold blockEntry
    rw [henter]
    rfl

theorem yields_of_step {s : Scanner} {t : Token}
    (h : s.step = .ok (inBlock c (t :: ts) b indents k? allow)) (ht : t ≠ .streamEnd)
    (hrest : s.place.rest = Written.margin m ++ r) (hr : startsToken r = true)
    (hshorter : c.rest.length < r.length)
    (hout : Yields (inBlock c (t :: ts) b indents k? allow) out) : Yields s out := by
  refine .more h (fun hend => ht (Option.some.inj hend)) ?_ hout
  rw [remaining_eq hrest hr]
  exact Nat.lt_of_le_of_lt (remaining_le _) hshorter

/-- **A dash.** -/
theorem yields_dash (hopens : Opens .blockSequenceStart n b indents start indents')
    (hrest : c.rest = Written.margin m ++ '-' :: ' ' :: x) (hcolumn : c.column + m = n)
    (h : ∀ c' : Cursor, c'.rest = ' ' :: x → c'.column = n + 1 →
      Yields (inBlock c' (.blockEntry :: (start ++ ts)) n indents' none true) out) :
    Yields (inBlock c ts b indents none true) out := by
  obtain ⟨rest, index, line, column⟩ := c
  dsimp only at hrest hcolumn
  subst hrest hcolumn
  let place : Cursor := ⟨'-' :: ' ' :: x, index + m, line, column + m⟩
  have hstep :
      (inBlock ⟨Written.margin m ++ '-' :: ' ' :: x, index, line, column⟩ ts b indents none
        true).step =
      .ok (inBlock (Cursor.advance 1 place) (.blockEntry :: (start ++ ts))
        (column + m : Nat) indents' none true) := by
    rw [step_token rfl, act_of_le rfl (by exact_mod_cast hopens.le), token_dash rfl,
      blockEntry_eq rfl hopens]
  exact yields_of_step hstep (by decide) rfl rfl (Nat.lt_succ_self _) (h _ rfl rfl)

theorem value_eq {k : Candidate} {t : Token} (hposition : k.position = ts.length)
    (h : Opens .blockMappingStart k.column b indents start indents') :
    (inBlock c (t :: ts) b indents (some k) false).value =
      .ok (inBlock (Cursor.advance 1 c) (.value :: t :: .key :: (start ++ ts)) k.column indents'
        none false) := by
  -- The key is put in before what was scanned since, and the start of the mapping before the key.
  have hkey : insertAt k.position .key
      { inBlock c (t :: ts) b indents (some k) false with candidate := none } =
      inBlock c (t :: .key :: ts) b indents none false := by
    have hlater : (t :: ts).length - k.position = 1 := by
      rw [hposition, List.length_cons]
      omega
    unfold insertAt
    simp only [inBlock, hlater]
    rfl
  have hvalue : (inBlock c (t :: ts) b indents (some k) false).value =
      .ok (((if !(inBlock c (t :: .key :: ts) b indents none false).inFlow &&
          (inBlock c (t :: .key :: ts) b indents none false).isDeeper k.column then
        insertAt k.position .blockMappingStart
          ((inBlock c (t :: .key :: ts) b indents none false).enter k.column)
      else inBlock c (t :: .key :: ts) b indents none false).mark .value 1).keyAllowed false) := by
    rw [← hkey]
    rfl
  rw [hvalue]
  cases h with
  | same h =>
    have hdeeper :
        (inBlock c (t :: .key :: ts) b indents none false).isDeeper k.column = false := by
      change decide (b < (k.column : Int)) = false
      rw [h]
      exact decide_eq_false (Int.lt_irrefl _)
    rw [hdeeper, Bool.and_false, if_neg Bool.false_ne_true, h]
    rfl
  | deeper h =>
    have hdeeper : (inBlock c (t :: .key :: ts) b indents none false).isDeeper k.column = true :=
      decide_eq_true h
    have hstart : insertAt k.position .blockMappingStart
        ((inBlock c (t :: .key :: ts) b indents none false).enter k.column) =
          inBlock c (t :: .key :: .blockMappingStart :: ts) k.column (b :: indents) none false := by
      have hlater : (t :: Token.key :: ts).length - k.position = 2 := by
        rw [hposition, List.length_cons, List.length_cons]
        omega
      unfold insertAt
      simp only [inBlock, enter, hlater]
      rfl
    rw [hdeeper, hstart]
    rfl

/-- The candidate that a scalar leaves at its place. -/
def candidateAt (c : Cursor) (ts : List Token) (indent : Int) (allow : Bool) : Option Candidate :=
  if allow then some ⟨ts.length, c.index, c.line, c.column, decide (indent = (c.column : Int))⟩
  else none

theorem saveCandidate_eq : (inBlock c ts indent indents none allow).saveCandidate =
    .ok (inBlock c ts indent indents (candidateAt c ts indent allow) allow) := by
  cases allow with
  | false => rfl
  | true => rfl

theorem plainScalar_eq {r : Scalar.PlainRead} {k : String} (hread : Scalar.plain false indent c = r)
    (htext : r.text = k.toList) :
    (inBlock c ts indent indents none allow).plainScalar =
      .ok (inBlock r.place (.scalar k true :: ts) indent indents
        (candidateAt c ts indent allow) r.sawBreak) := by
  subst hread
  unfold plainScalar
  rw [saveCandidate_eq]
  change Except.ok (inBlock (Scalar.plain false indent c).place
    (.scalar (String.ofList (Scalar.plain false indent c).text) true :: ts) indent indents
    (candidateAt c ts indent allow) (Scalar.plain false indent c).sawBreak) = _
  rw [htext, String.ofList_toList]

theorem quotedScalar_eq {k : String} (hread : Scalar.quoted '\'' c = .ok (k.toList, c')) :
    (inBlock c ts indent indents none allow).quotedScalar '\'' =
      .ok (inBlock c' (.scalar k false :: ts) indent indents
        (candidateAt c ts indent allow) false) := by
  unfold quotedScalar
  rw [saveCandidate_eq]
  change Scalar.quoted '\'' c >>= _ = _
  rw [hread]
  change Except.ok (inBlock c' (.scalar (String.ofList k.toList) false :: ts) indent indents
    (candidateAt c ts indent allow) false) = _
  rw [String.ofList_toList]

theorem startsToken_of_word {k : String} (hk : IsPlainWord k) :
    startsToken (k.toList ++ u) = true := by
  obtain ⟨c, w, hw⟩ := List.exists_cons_of_ne_nil hk.notEmpty
  obtain ⟨htyped, hgap⟩ := hk.word c (by rw [hw]; exact List.mem_cons_self)
  obtain ⟨hspace, hfeed⟩ : c ≠ ' ' ∧ c ≠ '\n' := by simpa [isGap] using hgap
  have htab : c ≠ '\t' := ne_of_isTyped htyped (by decide)
  have hstart := (hk.noMarks hw).1
  rw [Written.startsWithMark, Bool.or_eq_false_iff] at hstart
  have hcomment : c ≠ '#' := by
    rintro rfl
    exact absurd hstart.1 (by decide)
  rw [hw]
  simp [startsToken, Scalar.startsSolid, hspace, htab, isBreak_of_isTyped htyped, hfeed, hcomment]

/-- **A word is one token**, and leaves a candidate for a key behind where one is allowed. -/
theorem step_word {k : String} (hk : IsPlainWord k) (hu : Scalar.stopsPlain u = true)
    (hindent : indent ≤ (column + m : Nat)) {broke : Bool}
    (hread : Scalar.plain false indent ⟨k.toList ++ u, index + m, line, column + m⟩ =
      ⟨k.toList, broke, c⟩) :
    (inBlock ⟨Written.margin m ++ (k.toList ++ u), index, line, column⟩ ts indent indents none
      allow).step =
      .ok (inBlock c (.scalar k true :: ts) indent indents
        (candidateAt ⟨k.toList ++ u, index + m, line, column + m⟩ ts indent allow) broke) := by
  obtain ⟨ch, w, hw⟩ := List.exists_cons_of_ne_nil hk.notEmpty
  have hrest : k.toList ++ u = ch :: (w ++ u) := by
    rw [hw]
    rfl
  rw [step_token (startsToken_of_word hk), act_of_le hrest hindent,
    (atWord_of_word hk hu hw hrest rfl).token_eq, plainScalar_eq hread rfl]

/-- **A key and its colon.** -/
theorem yields_key {k : String} (hk : IsKey k)
    (hopens : Opens .blockMappingStart n b indents start indents') (hx : endsWord x.head? = true)
    (hrest : c.rest = Written.margin m ++ (k.toList ++ ':' :: x)) (hcolumn : c.column + m = n)
    (h : ∀ c' : Cursor, c'.rest = x → n < c'.column →
      Yields (inBlock c' (.value :: .scalar k true :: .key :: (start ++ ts)) n indents' none false)
        out) :
    Yields (inBlock c ts b indents none true) out := by
  obtain ⟨rest, index, line, column⟩ := c
  dsimp only at hrest hcolumn
  subst hrest hcolumn
  -- Two steps: the word leaves a candidate at its place, and the colon finds it there.
  let place : Cursor := ⟨k.toList ++ ':' :: x, index + m, line, column + m⟩
  let colon : Cursor := ⟨':' :: x, index + m + k.toList.length, line, column + m + k.toList.length⟩
  have hword :
      (inBlock ⟨Written.margin m ++ (k.toList ++ ':' :: x), index, line, column⟩ ts b indents none
        true).step =
      .ok (inBlock colon (.scalar k true :: ts) b indents (candidateAt place ts b true) false) :=
    step_word hk.word (by simp [Scalar.stopsPlain, hx]) (by exact_mod_cast hopens.le)
      (hk.word.plain_colon hx)
  have hvalue :
      (inBlock colon (.scalar k true :: ts) b indents (candidateAt place ts b true) false).step =
      .ok (inBlock (Cursor.advance 1 colon) (.value :: .scalar k true :: .key :: (start ++ ts))
        (column + m : Nat)
        indents' none false) := by
    have hnext : toNextToken false (colon.rest.length + 1) false colon = (false, colon) :=
      toNextToken_token (r := ':' :: x) (m := 0) rfl
    have hnear : colon.index - place.index ≤ longestKey := by
      change index + m + k.toList.length - (index + m) ≤ longestKey
      have := hk.length
      omega
    have hle : b ≤ (colon.column : Int) := by
      have := hopens.le
      change b ≤ ((column + m + k.toList.length : Nat) : Int)
      omega
    refine (step_eq_act_of_kept hnext rfl hnear).trans ?_
    rw [act_of_le rfl hle, token_colon rfl hx, value_eq rfl hopens]
  refine yields_of_step hword (by simp) rfl (startsToken_of_word hk.word) ?_
    (yields_of_step (m := 0) hvalue (by simp) rfl rfl (Nat.lt_succ_self _) (h _ rfl ?_))
  · have hpos : 0 < k.toList.length := List.length_pos_iff.mpr hk.word.notEmpty
    change (':' :: x).length < (k.toList ++ ':' :: x).length
    rw [List.length_append]
    omega
  · change column + m < column + m + k.toList.length + 1
    omega

/-- After the end of a line, the place of the next token is that from the start of the next line. -/
theorem yields_of_feed {k? : Option Candidate} (hfollows : Follows n v) (hrest : c.rest = '\n' :: v)
    (hpassed : ∀ k, k? = some k → k.line ≤ c.line ∧ k.required = false)
    (h : ∀ c' : Cursor, c'.rest = v → c'.column = 0 →
      Yields (inBlock c' ts indent indents none true) out) :
    Yields (inBlock c ts indent indents k? allow) out := by
  obtain ⟨rest, index, line, column⟩ := c
  dsimp only at hrest hpassed
  subst hrest
  obtain ⟨m, r, rfl, -, hr⟩ := hfollows
  refine (h ⟨Written.margin m ++ r, index + 1, line + 1, 0⟩ rfl rfl).of_step_eq ?_
    (Nat.le_of_eq rfl)
  rw [step_feed hr hpassed, step_token hr, Nat.zero_add]

/-- The place of a token is as good as the start of its line. -/
theorem yields_of_token {k? : Option Candidate} (hr : startsToken r = true)
    (hpassed : ∀ k, k? = some k → k.line < line ∧ k.required = false)
    (h : Yields (inBlock ⟨Written.margin m ++ r, index, line, 0⟩ ts indent indents none true) out) :
    Yields (inBlock ⟨r, index + m, line, m⟩ ts indent indents k? true) out := by
  have hhere :
      toNextToken false (r.length + 1) true ⟨r, index + m, line, m⟩ =
        (true, ⟨r, index + m, line, m⟩) :=
    toNextToken_token (m := 0) hr
  refine h.of_step_eq ?_ ?_
  · rw [step_eq_act hhere hpassed, step_token hr, Nat.zero_add]
  · rw [remaining_eq (m := m) rfl hr, remaining_eq (m := 0) rfl hr]
    exact Nat.le_refl _

/-- **The end of a block.** The next line belongs to what holds the block. -/
theorem yields_close {b : Nat} (hfollows : Follows b v) (hlt : b < n) (hrest : c.rest = v)
    (hcolumn : c.column = 0) (h : Yields (inBlock c (.blockEnd :: ts) b indents none true) out) :
    Yields (inBlock c ts n (b :: indents) none true) out := by
  obtain ⟨rest, index, line, column⟩ := c
  dsimp only at hrest hcolumn
  subst hrest hcolumn
  obtain ⟨m, r, rfl, hm, hr⟩ := hfollows
  refine h.of_step_eq ?_ (Nat.le_refl _)
  rw [step_token hr, step_token hr, act_close]
  change ((0 + m : Nat) : Int) < (n : Int)
  omega

/-- Where a key is not required, the candidate can be given up with the line. -/
theorem passed_of_candidateAt {k : Candidate} (h : candidateAt c ts indent allow = some k)
    (hcolumn : indent ≠ (c.column : Int)) : k.line = c.line ∧ k.required = false := by
  unfold candidateAt at h
  split at h
  · obtain rfl := Option.some.inj h
    exact ⟨rfl, decide_eq_false hcolumn⟩
  · exact nomatch h

/-- A word after a space, at the end of a line. -/
theorem yields_word {s : String} (hs : IsPlainWord s) (hfollows : Follows n v)
    (hrest : c.rest = ' ' :: (s.toList ++ '\n' :: v)) (hcolumn : n ≤ c.column)
    (h : ∀ c' : Cursor, c'.rest = v → c'.column = 0 →
      Yields (inBlock c' (.scalar s true :: ts) n indents none true) out) :
    Yields (inBlock c ts n indents none allow) out := by
  obtain ⟨rest, index, line, column⟩ := c
  dsimp only at hrest hcolumn
  subst hrest
  obtain ⟨m, r, rfl, hm, hr⟩ := hfollows
  let place : Cursor := ⟨s.toList ++ '\n' :: (Written.margin m ++ r), index + 1, line, column + 1⟩
  have hindent : (n : Int) < (place.column : Int) := by
    change (n : Int) < ((column + 1 : Nat) : Int)
    omega
  -- One step takes the blank, the word and the line feed with the margin behind it.
  have hstep :
      (inBlock ⟨' ' :: (s.toList ++ '\n' :: (Written.margin m ++ r)), index, line, column⟩ ts n
        indents none allow).step =
      .ok (inBlock ⟨r, index + 1 + s.toList.length + 1 + m, line + 1, m⟩
        (.scalar s true :: ts) n indents (candidateAt place ts n allow) true) :=
    step_word (m := 1) hs rfl (Int.le_of_lt hindent)
      (hs.plain_feed (Bool.and_eq_true_iff.mp hr).1 (by exact_mod_cast hm))
  refine yields_of_step (m := 1) hstep (by simp) rfl (startsToken_of_word hs) ?_
    (yields_of_token hr (fun k hk => ?_) (h _ rfl rfl))
  · change r.length < (s.toList ++ '\n' :: (Written.margin m ++ r)).length
    rw [List.length_append, List.length_cons, List.length_append]
    omega
  · obtain ⟨hline, hrequired⟩ := passed_of_candidateAt hk (Int.ne_of_lt hindent)
    exact ⟨hline ▸ Nat.lt_succ_self _, hrequired⟩

/-- A quoted text after a space, at the end of a line. -/
theorem yields_quoted {s : String} {column' : Nat} (hs : IsQuoted s) (hfollows : Follows n v)
    (hrest : c.rest = ' ' :: (Written.scalar (n + 2) column' s ++ '\n' :: v))
    (hcolumn : n ≤ c.column) (h : ∀ c' : Cursor, c'.rest = v → c'.column = 0 →
      Yields (inBlock c' (.scalar s false :: ts) n indents none true) out) :
    Yields (inBlock c ts n indents none allow) out := by
  obtain ⟨rest, index, line, column⟩ := c
  dsimp only at hrest hcolumn
  subst hrest
  obtain ⟨body, hbody⟩ : ∃ body, Written.scalar (n + 2) column' s = '\'' :: body := by
    unfold Written.scalar
    rw [hs.style]
    exact ⟨_, rfl⟩
  let place : Cursor := ⟨'\'' :: (body ++ '\n' :: v), index + 1, line, column + 1⟩
  have hindent : (n : Int) < (place.column : Int) := by
    change (n : Int) < ((column + 1 : Nat) : Int)
    omega
  obtain ⟨c', hread, hrest, hline⟩ : Scalar.Gives
      (Scalar.quoted '\'' ⟨Written.scalar (n + 2) column' s ++ '\n' :: v, index + 1, line,
        column + 1⟩)
      s.toList ('\n' :: v) line := hs.gives_quoted (by simp)
  rw [hbody] at hread ⊢
  -- One step for the blank and the quoted text; the text is a candidate for a key, which the line
  -- feed behind it passes.
  have hstep :
      (inBlock ⟨' ' :: ('\'' :: body ++ '\n' :: v), index, line, column⟩ ts n indents none
        allow).step =
      .ok (inBlock c' (.scalar s false :: ts) n indents (candidateAt place ts n allow) false) := by
    refine (step_token (m := 1) (r := place.rest) rfl).trans ?_
    rw [act_of_le (r := body ++ '\n' :: v) rfl (Int.le_of_lt hindent),
      token_quote (r := body ++ '\n' :: v) rfl]
    exact quotedScalar_eq hread
  refine yields_of_step (m := 1) hstep (by simp) rfl (r := '\'' :: (body ++ '\n' :: v)) rfl ?_
    (yields_of_feed hfollows hrest (fun k hk => ?_) h)
  · rw [hrest, List.length_cons (a := '\''), List.length_append]
    omega
  · obtain ⟨hstart, hrequired⟩ := passed_of_candidateAt hk (Int.ne_of_lt hindent)
    exact ⟨hstart ▸ hline, hrequired⟩

/-- **A scalar.** A text is one token, whether a key could start at its place or not. -/
theorem yields_scalar {s : String} (column' : Nat) (hs : IsPlainWord s ∨ IsQuoted s)
    (hfollows : Follows n v)
    (hrest : c.rest = ' ' :: (Written.scalar (n + 2) column' s ++ '\n' :: v))
    (hcolumn : n ≤ c.column) (h : ∀ c' : Cursor, c'.rest = v → c'.column = 0 →
      Yields (inBlock c' (.scalar s (Written.style s = .plain) :: ts) n indents none true) out) :
    Yields (inBlock c ts n indents none allow) out := by
  rcases hs with hs | hs
  · rw [hs.scalar_eq] at hrest
    rw [hs.style] at h
    exact yields_word hs hfollows hrest hcolumn h
  · rw [hs.style] at h
    exact yields_quoted hs hfollows hrest hcolumn h

/-! ### Trees -/

theorem follows_listLines {items : List Tree} (h : Follows n v) :
    Follows n (Written.listLines n items ++ v) := by
  cases items with
  | nil => exact h
  | cons t rest =>
    refine ⟨n, '-' :: ' ' :: (Written.afterDash n t ++ Written.listLines n rest ++ v), ?_,
      Nat.le_refl _, rfl⟩
    rw [Written.listLines, List.append_assoc]
    rfl

theorem mappingLines_cons {k : String} (hk : IsKey k) (t : Tree) (rest : List (String × Tree))
    (fresh : Bool) :
    Written.mappingLines n fresh ((k, t) :: rest) ++ v =
      Written.margin (if fresh then n else 0) ++ (k.toList ++ ':' ::
      (Written.afterKey n (n + k.toList.length + 1) t ++
        (Written.mappingLines n true rest ++ v))) := by
  rw [Written.mappingLines, hk.word.scalar_eq]
  cases fresh <;> simp [Written.margin]

theorem follows_mappingLines {entries : List (String × Tree)}
    (hentries : Tree.LegibleEntries entries) (h : Follows n v) :
    Follows n (Written.mappingLines n true entries ++ v) := by
  match entries, hentries with
  | [], _ => exact h
  | (k, t) :: rest, ⟨hk, _, _⟩ =>
    rw [mappingLines_cons hk]
    exact ⟨n, _, rfl, Nat.le_refl _, startsToken_of_word hk.word⟩

theorem endsWord_afterKey (t : Tree) :
    endsWord (Written.afterKey n column t ++ v).head? = true := by
  match t with
  | .text _ => rfl
  | .list [] => rfl
  | .list (_ :: _) => rfl
  | .mapping [] => rfl
  | .mapping (_ :: _) => rfl

mutual

/-- What stands after a colon is read as the value that was written. -/
theorem yields_afterKey :
    ∀ (t : Tree), t.Legible → ∀ {n column' : Nat} {ts : List Token} {indents : List Int}
    {v : List Char} {out : List Token} {c : Cursor}, Follows n v →
      c.rest = Written.afterKey n column' t ++ v →
    n < c.column → (∀ c' : Cursor, c'.rest = v → c'.column = 0 →
      Yields (inBlock c' ((t.tokens true).reverse ++ ts) n indents none true) out) →
    Yields (inBlock c ts n indents none false) out
  | .text s, hs, n, column', ts, indents, v, out, c, hfollows, hrest, hcolumn, h => by
    refine yields_scalar (column' + 1) hs hfollows ?_ (Nat.le_of_lt hcolumn) h
    rw [hrest, Written.afterKey]
    simp
  | .list (t :: items), ⟨_, hitems⟩, n, column', ts, indents, v, out, c, hfollows, hrest, _, h => by
    -- The dashes stand in the column of the key, so no block begins and none ends.
    change c.rest = '\n' :: (Written.listLines n (t :: items) ++ v) at hrest
    refine yields_of_feed (follows_listLines hfollows) hrest (fun _ hk => nomatch hk)
      fun c' hrest' hcolumn' => ?_
    exact yields_listLines (t :: items) hitems hfollows hrest' hcolumn' h
  | .mapping ((k, t) :: rest), ⟨_, _, hk, ht, hentries⟩, n, column', ts, indents, v, out, c,
      hfollows, hrest, _, h => by
    -- The first key opens a block two columns further in, and what follows the mapping closes it.
    change c.rest = '\n' :: (Written.mappingLines (n + 2) true ((k, t) :: rest) ++ v) at hrest
    have hfollows' : Follows (n + 2) v := hfollows.mono (Nat.le_add_right n 2)
    have hall : Tree.LegibleEntries ((k, t) :: rest) := ⟨hk, ht, hentries⟩
    refine yields_of_feed (follows_mappingLines hall hfollows') hrest (fun _ hk => nomatch hk)
      fun c₁ hrest₁ hcolumn₁ => ?_
    rw [mappingLines_cons hk] at hrest₁
    refine yields_key (n := n + 2) hk (.deeper (by omega)) (endsWord_afterKey t) hrest₁
      (by simp [hcolumn₁]) fun c₂ hrest₂ hcolumn₂ => ?_
    refine yields_afterKey t ht (follows_mappingLines hentries hfollows') hrest₂ hcolumn₂
      fun c₃ hrest₃ hcolumn₃ => ?_
    refine yields_mappingLines rest hentries hfollows' hrest₃ hcolumn₃ fun c₄ hrest₄ hcolumn₄ => ?_
    refine yields_close hfollows (Nat.lt_add_of_pos_right (by decide)) hrest₄ hcolumn₄ ?_
    simpa [Tree.tokens, Tree.entryTokens] using h c₄ hrest₄ hcolumn₄

/-- What stands after a dash is read as the item that was written. -/
theorem yields_afterDash :
    ∀ (t : Tree), t.Legible → ∀ {n : Nat} {ts : List Token} {indents : List Int}
    {v : List Char} {out : List Token} {c : Cursor}, Follows n v →
      c.rest = ' ' :: (Written.afterDash n t ++ v) →
    c.column = n + 1 → (∀ c' : Cursor, c'.rest = v → c'.column = 0 →
      Yields (inBlock c' ((t.tokens false).reverse ++ ts) n indents none true) out) →
    Yields (inBlock c ts n indents none true) out
  | .text s, hs, n, ts, indents, v, out, c, hfollows, hrest, hcolumn, h => by
    refine yields_scalar (n + 2) hs hfollows ?_ (by omega) h
    rw [hrest, Written.afterDash]
    simp
  | .list (t :: items), ⟨_, ht, hitems⟩, n, ts, indents, v, out, c, hfollows, hrest,
      hcolumn, h => by
    -- The first dash of the inner list stands on the line of the outer dash, after one space.
    have hfollows' : Follows (n + 2) v := hfollows.mono (Nat.le_add_right n 2)
    have hrest : c.rest = Written.margin 1 ++ '-' :: ' ' :: (Written.afterDash (n + 2) t ++
        (Written.listLines (n + 2) items ++ v)) := by
      rw [hrest, ← List.append_assoc]
      rfl
    refine yields_dash (n := n + 2) (.deeper (by omega)) hrest (by omega)
      fun c₁ hrest₁ hcolumn₁ => ?_
    refine yields_afterDash t ht (follows_listLines hfollows') hrest₁ hcolumn₁
      fun c₂ hrest₂ hcolumn₂ => ?_
    refine yields_listLines items hitems hfollows' hrest₂ hcolumn₂ fun c₃ hrest₃ hcolumn₃ => ?_
    refine yields_close hfollows (Nat.lt_add_of_pos_right (by decide)) hrest₃ hcolumn₃ ?_
    simpa [Tree.tokens, Tree.itemTokens] using h c₃ hrest₃ hcolumn₃
  | .mapping ((k, t) :: rest), ⟨_, _, hk, ht, hentries⟩, n, ts, indents, v, out, c, hfollows, hrest,
      hcolumn, h => by
    have hfollows' : Follows (n + 2) v := hfollows.mono (Nat.le_add_right n 2)
    have hrest : c.rest = Written.margin 1 ++ (k.toList ++ ':' ::
        (Written.afterKey (n + 2) (n + 2 + k.toList.length + 1) t ++
          (Written.mappingLines (n + 2) true rest ++ v))) := by
      rw [hrest]
      exact congrArg (' ' :: ·) (mappingLines_cons hk t rest false)
    refine yields_key hk (n := n + 2) (.deeper (by omega)) (endsWord_afterKey t) hrest (by omega)
      fun c₁ hrest₁ hcolumn₁ => ?_
    refine yields_afterKey t ht (follows_mappingLines hentries hfollows') hrest₁ hcolumn₁
      fun c₂ hrest₂ hcolumn₂ => ?_
    refine yields_mappingLines rest hentries hfollows' hrest₂ hcolumn₂ fun c₃ hrest₃ hcolumn₃ => ?_
    refine yields_close hfollows (Nat.lt_add_of_pos_right (by decide)) hrest₃ hcolumn₃ ?_
    simpa [Tree.tokens, Tree.entryTokens] using h c₃ hrest₃ hcolumn₃

/-- Lines of a list are read as its items. -/
theorem yields_listLines :
    ∀ (items : List Tree), Tree.LegibleItems items → ∀ {n : Nat} {ts : List Token}
    {indents : List Int} {v : List Char} {out : List Token} {c : Cursor}, Follows n v →
    c.rest = Written.listLines n items ++ v → c.column = 0 →
      (∀ c' : Cursor, c'.rest = v → c'.column = 0 →
      Yields (inBlock c' ((Tree.itemTokens items).reverse ++ ts) n indents none true) out) →
    Yields (inBlock c ts n indents none true) out
  | [], _, _, _, _, _, _, c, _, hrest, hcolumn, h => h c hrest hcolumn
  | t :: rest, ⟨ht, hitems⟩, n, ts, indents, v, out, c, hfollows, hrest, hcolumn, h => by
    have hrest : c.rest =
        Written.margin n ++
        '-' :: ' ' :: (Written.afterDash n t ++ (Written.listLines n rest ++ v)) := by
      rw [hrest, Written.listLines]
      simp
    refine yields_dash (.same rfl) hrest (by omega) fun c₁ hrest₁ hcolumn₁ => ?_
    refine yields_afterDash t ht (follows_listLines hfollows) hrest₁ hcolumn₁
      fun c₂ hrest₂ hcolumn₂ => ?_
    refine yields_listLines rest hitems hfollows hrest₂ hcolumn₂ fun c₃ hrest₃ hcolumn₃ => ?_
    simpa [Tree.itemTokens] using h c₃ hrest₃ hcolumn₃

/-- Lines of a mapping are read as its entries. -/
theorem yields_mappingLines :
    ∀ (entries : List (String × Tree)), Tree.LegibleEntries entries → ∀ {n : Nat}
    {ts : List Token} {indents : List Int} {v : List Char} {out : List Token}
    {c : Cursor}, Follows n v →
    c.rest = Written.mappingLines n true entries ++ v → c.column = 0 →
      (∀ c' : Cursor, c'.rest = v → c'.column = 0 →
      Yields (inBlock c' ((Tree.entryTokens entries).reverse ++ ts) n indents none true) out) →
    Yields (inBlock c ts n indents none true) out
  | [], _, _, _, _, _, _, c, _, hrest, hcolumn, h => h c hrest hcolumn
  | (k, t) :: rest, ⟨hk, ht, hentries⟩, n, ts, indents, v, out, c, hfollows, hrest, hcolumn, h => by
    rw [mappingLines_cons hk] at hrest
    refine yields_key hk (.same rfl) (endsWord_afterKey t) hrest (by simp [hcolumn])
      fun c₁ hrest₁ hcolumn₁ => ?_
    refine yields_afterKey t ht (follows_mappingLines hentries hfollows) hrest₁ hcolumn₁
      fun c₂ hrest₂ hcolumn₂ => ?_
    refine yields_mappingLines rest hentries hfollows hrest₂ hcolumn₂ fun c₃ hrest₃ hcolumn₃ => ?_
    simpa [Tree.entryTokens] using h c₃ hrest₃ hcolumn₃

end

/-- The end of a text is the end of the outermost block. -/
theorem yields_end (hrest : c.rest = []) (hcolumn : c.column = 0) :
    Yields (inBlock c ts (0 : Nat) [-1] none true) (.streamEnd :: .blockEnd :: ts) := by
  obtain ⟨rest, index, line, column⟩ := c
  dsimp only at hrest hcolumn
  subst hrest hcolumn
  let done : Scanner :=
    inBlock ⟨[], index, line, 0⟩ (.streamEnd :: .blockEnd :: ts) (-1) [] none true
  have hstep : (inBlock ⟨[], index, line, 0⟩ ts (0 : Nat) [-1] none true).step = .ok done := rfl
  exact .last hstep rfl

end Scanner

/-! ### Documents -/

namespace Scanner

/-- The state in which a text is started. -/
def atStart (text : List Char) : Scanner := inBlock ⟨text, 0, 0, 0⟩ [] (-1) [] none true

theorem scan_of_yields {text : List Char} {out : List Token} (hmark : text.head? ≠ some '\ufeff')
    (h : Yields (atStart text) out) : Token.scan text = out.reverse := by
  have hat : Cursor.isAt ⟨text, 0, 0, 0⟩ '\ufeff' = false := decide_eq_false hmark
  have hfuel : (atStart text).remaining < text.length + 2 :=
    Nat.lt_of_le_of_lt (remaining_le _) (Nat.lt_add_of_pos_right (by decide))
  unfold Token.scan
  dsimp only
  rw [hat, if_neg Bool.false_ne_true]
  exact congrArg List.reverse (h.run_eq hfuel)

theorem yields_list {items : List Tree} (hlist : (Tree.list items).Legible) :
    Yields (atStart (Written.listLines 0 items))
      (.streamEnd :: ((Tree.list items).tokens false).reverse) := by
  match items, hlist with
  | [], ⟨hne, _⟩ => exact absurd rfl hne
  | t :: rest, ⟨_, ht, hitems⟩ =>
    have hfollows : Follows 0 [] := ⟨0, [], rfl, Nat.le_refl _, rfl⟩
    refine yields_dash (n := 0) (m := 0) (.deeper (by decide)) rfl rfl fun c₁ hrest₁ hcolumn₁ => ?_
    rw [← List.append_nil (Written.listLines 0 rest)] at hrest₁
    refine yields_afterDash t ht (follows_listLines hfollows) hrest₁ hcolumn₁
      fun c₂ hrest₂ hcolumn₂ => ?_
    refine yields_listLines rest hitems hfollows hrest₂ hcolumn₂ fun c₃ hrest₃ hcolumn₃ => ?_
    simpa [Tree.tokens, Tree.itemTokens] using yields_end hrest₃ hcolumn₃

theorem yields_mapping {entries : List (String × Tree)}
    (hmapping : (Tree.mapping entries).Legible) :
    Yields (atStart (Written.mappingLines 0 true entries))
      (.streamEnd :: ((Tree.mapping entries).tokens false).reverse) := by
  match entries, hmapping with
  | [], ⟨hne, _⟩ => exact absurd rfl hne
  | (k, t) :: rest, ⟨_, _, hk, ht, hentries⟩ =>
    have hfollows : Follows 0 [] := ⟨0, [], rfl, Nat.le_refl _, rfl⟩
    have hlines := mappingLines_cons (n := 0) (v := []) hk t rest true
    rw [List.append_nil] at hlines
    rw [hlines]
    refine yields_key (n := 0) hk (.deeper (by decide)) (endsWord_afterKey t) rfl rfl
      fun c₁ hrest₁ hcolumn₁ => ?_
    refine yields_afterKey t ht (follows_mappingLines hentries hfollows) hrest₁ hcolumn₁
      fun c₂ hrest₂ hcolumn₂ => ?_
    refine yields_mappingLines rest hentries hfollows hrest₂ hcolumn₂ fun c₃ hrest₃ hcolumn₃ => ?_
    simpa [Tree.tokens, Tree.entryTokens] using yields_end hrest₃ hcolumn₃

end Scanner

/-! ### Characters of a written tree -/

namespace Written

theorem typed_margin (n : Nat) : (margin n).all isTyped = true := by
  rw [List.all_eq_true]
  intro c hc
  rw [List.eq_of_mem_replicate hc]
  rfl

theorem typed_singleBody {s : List Char} (hs : s.all isTyped = true) (indent : Nat)
    (before : Option Char) (column : Nat) :
    (singleBody indent before column s).all isTyped = true := by
  induction s generalizing before column with
  | nil => rfl
  | cons c s ih =>
    rw [List.all_cons, Bool.and_eq_true] at hs
    obtain ⟨hc, hs⟩ := hs
    have ih := ih hs
    have hfeed : isTyped '\n' = true := rfl
    have hquote : isTyped '\'' = true := rfl
    rw [singleBody]
    split
    · split <;> simp [hc, hfeed, typed_margin, ih]
    · split
      · dsimp only
        split <;> split <;> simp [hc, hfeed, typed_margin, ih]
      · split <;> simp [hc, hquote, ih]

theorem typed_scalar {s : String} (hs : IsPlainWord s ∨ IsQuoted s) (indent column : Nat) :
    (scalar indent column s).all isTyped = true := by
  rcases hs with hs | hs
  · rw [hs.scalar_eq, List.all_eq_true]
    exact hs.typed
  · have hbody := typed_singleBody (List.all_eq_true.mpr hs.typed) indent none (column + 1)
    have hquote : isTyped '\'' = true := rfl
    unfold scalar
    rw [hs.style]
    simp [singleQuoted, hbody, hquote]

mutual

theorem typed_afterKey :
    ∀ (t : Tree), t.Legible → ∀ n column, (afterKey n column t).all isTyped = true
  | .text s, hs, n, column => by
    have hscalar := typed_scalar hs (n + 2) (column + 1)
    rw [afterKey, List.all_cons, List.all_append, hscalar]
    rfl
  | .list (t :: items), ⟨_, hitems⟩, n, _ => typed_listLines (t :: items) hitems n
  | .mapping (e :: entries), ⟨_, _, hentries⟩, n, _ =>
    typed_mappingLines (e :: entries) hentries (n + 2) true

theorem typed_afterDash : ∀ (t : Tree), t.Legible → ∀ n, (afterDash n t).all isTyped = true
  | .text s, hs, n => by
    have hscalar := typed_scalar hs (n + 2) (n + 2)
    rw [afterDash, List.all_append, hscalar]
    rfl
  | .list (t :: items), ⟨_, ht, hitems⟩, n => by
    have hfirst := typed_afterDash t ht (n + 2)
    have hrest := typed_listLines items hitems (n + 2)
    change ('-' :: ' ' :: (afterDash (n + 2) t ++ listLines (n + 2) items)).all isTyped = true
    rw [List.all_cons, List.all_cons, List.all_append, hfirst, hrest]
    rfl
  | .mapping (e :: entries), ⟨_, _, hentries⟩, n =>
    typed_mappingLines (e :: entries) hentries (n + 2) false

theorem typed_listLines :
    ∀ (items : List Tree), Tree.LegibleItems items → ∀ n, (listLines n items).all isTyped = true
  | [], _, _ => rfl
  | t :: rest, ⟨ht, hitems⟩, n => by
    have hfirst := typed_afterDash t ht n
    have hrest := typed_listLines rest hitems n
    rw [listLines, List.all_append, typed_margin, List.all_cons, List.all_cons, List.all_append,
      hfirst, hrest]
    rfl

theorem typed_mappingLines :
    ∀ (entries : List (String × Tree)), Tree.LegibleEntries entries → ∀ n fresh,
    (mappingLines n fresh entries).all isTyped = true
  | [], _, _, _ => rfl
  | (k, t) :: rest, ⟨hk, ht, hentries⟩, n, fresh => by
    have hkey := typed_scalar (.inl hk.word) n n
    have hvalue := typed_afterKey t ht n (n + (scalar n n k).length + 1)
    have hrest := typed_mappingLines rest hentries n true
    have hmargin : (if fresh = true then margin n else []).all isTyped = true := by
      cases fresh with
      | false => rfl
      | true => exact typed_margin n
    rw [mappingLines, List.all_append, List.all_append, hmargin, hkey, List.all_cons,
      List.all_append, hvalue, hrest]
    rfl

end

end Written

/-- A written tree consists of printable characters of ASCII and line feeds. -/
theorem typed_write {t : Tree} (ht : t.Legible) : (write t).toList.all isTyped = true := by
  cases t with
  | text s =>
    rw [write, String.toList_ofList, List.all_append, Written.typed_scalar ht]
    rfl
  | list items =>
    rw [write, String.toList_ofList]
    exact Written.typed_listLines items ht.2 0
  | mapping entries =>
    rw [write, String.toList_ofList]
    exact Written.typed_mappingLines entries ht.2.2 0 true

/-- **The tokens of a written tree** are those of the tree. -/
theorem scan_write {t : Tree} (ht : t.Legible) (hcollection : ∀ s, t ≠ .text s) :
    Token.scan (write t).toList = t.tokens false ++ [.streamEnd] := by
  have hmark : (write t).toList.head? ≠ some '\ufeff' := by
    intro hhead
    have hmem := List.mem_of_head? hhead
    exact absurd (List.all_eq_true.mp (typed_write ht) _ hmem) (by decide)
  cases t with
  | text s => exact absurd rfl (hcollection s)
  | list items =>
    rw [write, String.toList_ofList] at hmark ⊢
    rw [Scanner.scan_of_yields hmark (Scanner.yields_list ht), List.reverse_cons,
      List.reverse_reverse]
  | mapping entries =>
    rw [write, String.toList_ofList] at hmark ⊢
    rw [Scanner.scan_of_yields hmark (Scanner.yields_mapping ht), List.reverse_cons,
      List.reverse_reverse]

end PipelineRuns.Yaml
