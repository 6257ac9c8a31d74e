import Mathlib.Data.List.Basic
import PipelineRuns.Journal.Channel

/-!
# Which channels lie above a channel

A name is searched for dots from its end, and after a dot the character before it is passed over. So
not each dot ends the name of a channel above: of several dots in a row every other one does, the
last one first. `Channel.IsBelow` says the same without a search, by the number of dots that follow
the name of the upper channel, and `Channel.mem_lineage_iff` is the equivalence.

The search goes along the reversed name (`Channel.aboveReversed`); there the upper name is what
stands behind the dots (`Channel.StandsBehind`), and each clause of the search has its lemma.
-/

namespace PipelineRuns.Channel

/-- In the name of a channel below another one an odd number of dots stands between the name of the
upper channel and the further parts; in most names it is one. -/
def IsBelow (channel upper : String) : Prop :=
  ∃ (pairs : Nat) (parts : List Char),
    channel.toList = upper.toList ++ List.replicate (2 * pairs + 1) '.' ++ parts ∧
    parts.head? ≠ some '.'

/-- In a reversed name, an upper name stands behind an odd number of dots. -/
def StandsBehind (upper name : List Char) : Prop :=
  ∃ (pairs : Nat) (parts : List Char),
    name = parts ++ List.replicate (2 * pairs + 1) '.' ++ upper ∧ parts.getLast? ≠ some '.'

variable {c : Char} {name parts upper : List Char}

/-! ### The search from the end -/

theorem getLast?_cons_ne (h : parts.getLast? ≠ some '.') (hc : parts = [] → c ≠ '.') :
    (c :: parts).getLast? ≠ some '.' := by
  cases parts with
  | nil => exact fun heq => hc rfl (Option.some.inj heq)
  | cons d rest => rwa [List.getLast?_cons_cons]

theorem getLast?_ne_of_cons (h : (c :: parts).getLast? ≠ some '.') : parts.getLast? ≠ some '.' := by
  cases parts with
  | nil => exact nofun
  | cons d rest => rwa [List.getLast?_cons_cons] at h

theorem not_standsBehind_nil : ¬ StandsBehind upper [] := by
  rintro ⟨pairs, parts, hname, -⟩
  simp [List.replicate_succ] at hname

theorem not_standsBehind_dot (hupper : upper ≠ []) : ¬ StandsBehind upper ['.'] := by
  rintro ⟨pairs, parts, hname, -⟩
  have hlength := congrArg List.length hname
  have hpos : 0 < upper.length := List.length_pos_of_ne_nil hupper
  simp only [List.length_append, List.length_replicate, List.length_singleton] at hlength
  omega

/-- A character that is no dot belongs to the further parts. -/
theorem standsBehind_cons_iff (hc : c ≠ '.') :
    StandsBehind upper (c :: name) ↔ StandsBehind upper name := by
  constructor
  · rintro ⟨pairs, parts, hname, hlast⟩
    cases parts with
    | nil =>
      rw [List.replicate_succ] at hname
      exact absurd (List.cons.inj hname).1 hc
    | cons d rest => exact ⟨pairs, rest, (List.cons.inj hname).2, getLast?_ne_of_cons hlast⟩
  · rintro ⟨pairs, parts, rfl, hlast⟩
    exact ⟨pairs, c :: parts, rfl, getLast?_cons_ne hlast (fun _ => hc)⟩

/-- A dot may be the one that ends the upper name; if not, the search goes on behind the next
character. -/
theorem standsBehind_dot_iff :
    StandsBehind upper ('.' :: c :: name) ↔ upper = c :: name ∨ StandsBehind upper name := by
  constructor
  · rintro ⟨pairs, parts, hname, hlast⟩
    match parts with
    | [] =>
      cases pairs with
      | zero => exact .inl (List.cons.inj hname).2.symm
      | succ pairs =>
        -- Two of the dots have been read.
        have hrest : c :: name = '.' :: (List.replicate (2 * pairs + 1) '.' ++ upper) :=
          (List.cons.inj hname).2
        exact .inr ⟨pairs, [], (List.cons.inj hrest).2, nofun⟩
    | [d] =>
      have hd : '.' = d := (List.cons.inj hname).1
      exact absurd (congrArg some hd.symm) hlast
    | d :: e :: rest =>
      have hrest := (List.cons.inj (List.cons.inj hname).2).2
      exact .inr ⟨pairs, rest, hrest, getLast?_ne_of_cons (getLast?_ne_of_cons hlast)⟩
  · rintro (rfl | ⟨pairs, parts, rfl, hlast⟩)
    · exact ⟨0, [], rfl, nofun⟩
    · by_cases hdots : parts = [] ∧ c = '.'
      · obtain ⟨rfl, rfl⟩ := hdots
        exact ⟨pairs + 1, [], rfl, nofun⟩
      · have hc : parts = [] → c ≠ '.' := fun hparts hdot => hdots ⟨hparts, hdot⟩
        exact ⟨pairs, '.' :: c :: parts, rfl, getLast?_cons_ne (getLast?_cons_ne hlast hc) nofun⟩

/-- The search finds the names that stand behind an odd number of dots. -/
theorem mem_aboveReversed_iff (hupper : upper ≠ []) :
    upper.reverse ∈ aboveReversed name ↔ StandsBehind upper name := by
  induction name using aboveReversed.induct with
  | case1 => exact iff_of_false List.not_mem_nil not_standsBehind_nil
  | case2 => exact iff_of_false List.not_mem_nil (not_standsBehind_dot hupper)
  | case3 c rest ih =>
    rw [aboveReversed, List.mem_cons, List.reverse_inj, ih, standsBehind_dot_iff]
  | case4 c rest hend hdot ih =>
    have hc : c ≠ '.' := by
      rintro rfl
      cases rest with
      | nil => exact hend rfl rfl
      | cons d rest => exact hdot d rest rfl rfl
    rw [aboveReversed, ih, standsBehind_cons_iff hc]
    · exact hend
    · exact hdot

/-! ### Channels -/

theorem isBelow_iff_standsBehind {channel upper : String} :
    IsBelow channel upper ↔ StandsBehind upper.toList.reverse channel.toList.reverse := by
  constructor
  · rintro ⟨pairs, parts, hname, hhead⟩
    refine ⟨pairs, parts.reverse, ?_, by rwa [List.getLast?_reverse]⟩
    rw [hname, List.reverse_append, List.reverse_append, List.reverse_replicate, List.append_assoc]
  · rintro ⟨pairs, parts, hname, hlast⟩
    refine ⟨pairs, parts.reverse, ?_, by rwa [List.head?_reverse]⟩
    rw [← List.reverse_reverse channel.toList, hname, List.reverse_append, List.reverse_append,
      List.reverse_replicate, List.reverse_reverse, List.append_assoc]

/-- **The lineage of a channel** holds the channel and those that it lies below by its name. -/
theorem mem_lineage_iff {channel upper : String} (hupper : upper ≠ "") :
    upper ∈ lineage channel ↔ channel = upper ∨ IsBelow channel upper := by
  have hne : upper.toList.reverse ≠ [] := by
    rw [ne_eq, List.reverse_eq_nil_iff, String.toList_eq_nil_iff]
    exact hupper
  have habove : upper ∈ above channel ↔ IsBelow channel upper := by
    rw [isBelow_iff_standsBehind, ← mem_aboveReversed_iff hne, List.reverse_reverse, above,
      List.mem_map]
    constructor
    · rintro ⟨s, hs, rfl⟩
      rwa [String.toList_ofList]
    · exact fun hs => ⟨_, hs, String.ofList_toList⟩
  rw [lineage, List.mem_cons, habove, eq_comm]

/-- Two dots pair up. -/
example : "urllib3" ∈ lineage "urllib3.util.retry" ∧ "urllib3" ∉ lineage "urllib3..retry" := by
  decide

end PipelineRuns.Channel
