import PipelineRuns.Proofs.ResourceNames
import PipelineRuns.Proofs.RoundTrip
import PipelineRuns.Starter.Document

/-!
# The starter run read back

The text of the starter run is read as the resource that was meant (`Starter.resource`), whatever
the branch is called. Three texts of the resource are not fixed. The name consists of small letters,
digits and dashes, so it is written as a word or, where it would be read as a number, between
quotes. The names of the event and of the branch stand between brackets, and a text that starts with
a bracket is always quoted. So all texts are legible (`Starter.legible_document`), and the round
trip of legible trees applies.

Main statement: `Starter.parse_text`.
-/

namespace PipelineRuns

namespace Yaml

/-- A line of printable characters of ASCII. -/
def IsLine (s : String) : Prop := ∀ c ∈ s.toList, isTyped c = true ∧ c ≠ '\n'

instance (s : String) : Decidable (IsLine s) :=
  decidable_of_iff (s.toList.all (fun c => isTyped c && c ≠ '\n') = true) (by simp [IsLine])

variable {s : String}

theorem holdsPair_of_left {p q : Char → Bool} {cs : List Char} (h : ∀ c ∈ cs, p c = false) :
    Written.holdsPair p q cs = false := by
  induction cs with
  | nil => rfl
  | cons c cs ih =>
    cases cs with
    | nil => rfl
    | cons d cs =>
      rw [Written.holdsPair, h c List.mem_cons_self, Bool.false_and, Bool.false_or]
      exact ih (fun e he => h e (List.mem_cons_of_mem _ he))

theorem holdsPair_of_right {p q : Char → Bool} {cs : List Char} (h : ∀ c ∈ cs, q c = false) :
    Written.holdsPair p q cs = false := by
  induction cs with
  | nil => rfl
  | cons c cs ih =>
    cases cs with
    | nil => rfl
    | cons d cs =>
      rw [Written.holdsPair, h d (List.mem_cons_of_mem _ List.mem_cons_self), Bool.and_false,
        Bool.false_or]
      exact ih (fun e he => h e (List.mem_cons_of_mem _ he))

theorem isWritable_of_isTyped {c : Char} (h : isTyped c = true) : Written.isWritable c = true := by
  unfold isTyped at h
  unfold Written.isWritable
  simp [h]

/-- A printable line needs no escapes. -/
theorem allowSingle_of_line (hline : IsLine s) :
    (Written.traits s.toList).allowSingle = true := by
  have hbreak : ∀ c ∈ s.toList, Written.isWrittenBreak c = false := by
    intro c hc
    rw [isWrittenBreak_of_isTyped (hline c hc).1]
    exact decide_eq_false (hline c hc).2
  have hspecial : s.toList.any (fun c => !Written.isWritable c) = false := by
    rw [List.any_eq_false]
    intro c hc
    rw [isWritable_of_isTyped (hline c hc).1]
    exact Bool.false_ne_true
  simp [Written.Traits.allowSingle, Written.traits, holdsPair_of_left hbreak,
    holdsPair_of_right hbreak, hspecial]

/-- A printable line that starts with a mark is quoted. -/
theorem isQuoted_of_mark (hline : IsLine s) (hmark : Written.startsWithMark s.toList = true) :
    IsQuoted s := by
  refine ⟨?_, fun c hc => (hline c hc).1⟩
  have hplain : (Written.traits s.toList).allowPlain = false := by
    simp [Written.Traits.allowPlain, Written.traits, hmark]
  unfold Written.style
  dsimp only
  rw [hplain, Bool.false_and, if_neg Bool.false_ne_true, allowSingle_of_line hline, if_pos rfl]

/-- A printable word is written as it is, or quoted. -/
theorem legible_of_unspaced (hline : IsLine s) (hspace : ' ' ∉ s.toList) :
    IsPlainWord s ∨ IsQuoted s := by
  have htyped : ∀ c ∈ s.toList, isTyped c = true := fun c hc => (hline c hc).1
  -- A word that would be read as a number, say, is quoted.
  by_cases hplain : ((Written.traits s.toList).allowPlain && Tag.ofPlain s = .text) = true
  · exact .inl ⟨if_pos hplain, htyped, hspace⟩
  · refine .inr ⟨?_, htyped⟩
    unfold Written.style
    dsimp only
    rw [if_neg hplain, allowSingle_of_line hline, if_pos rfl]

end Yaml

namespace Starter

open Yaml

variable {repo event branch : String}

/-- The resource that is meant: the run of this name for an event on a branch, with two parameters
and a task of one step. -/
def resource (name event branch : String) : Value :=
  .object [
    ("apiVersion", .text "tekton.dev/v1beta1"),
    ("kind", .text "PipelineRun"),
    ("metadata", .object [
      ("name", .text name),
      ("annotations", .object [
        ("pipelinesascode.tekton.dev/on-event", .text ("[" ++ event ++ "]")),
        ("pipelinesascode.tekton.dev/on-target-branch", .text ("[" ++ branch ++ "]")),
        ("pipelinesascode.tekton.dev/max-keep-runs", .text "5")])]),
    ("spec", .object [
      ("params", .list [
        .object [("name", .text "repo_url"), ("value", .text "\x7b\x7b repo_url \x7d\x7d")],
        .object [("name", .text "revision"), ("value", .text "\x7b\x7b revision \x7d\x7d")]]),
      ("pipelineSpec", .object [
        ("params", .list [.object [("name", .text "repo_url")],
          .object [("name", .text "revision")]]),
        ("tasks", .list [
          .object [
            ("name", .text "noop-task"),
            ("taskSpec", .object [
              ("steps", .list [
                .object [
                  ("name", .text "noop-task"),
                  ("image", .text "registry.access.redhat.com/ubi8/ubi-micro"),
                  ("script", .text "exit 0\n")]])])]])])])]

/-- The name of an event has a letter, so it leaves a name whatever the repository is called. -/
theorem sanitize_event_ne_empty (hevent : event ∈ events.map Prod.fst) :
    ResourceName.sanitize (repo ++ "-" ++ event) ResourceName.maxLength ≠ "" := by
  have hletter : 'p' ∈ event.toList := by
    revert hevent
    simp only [events, List.map_cons, List.map_nil, List.mem_cons, List.not_mem_nil, or_false]
    rintro (rfl | rfl) <;> decide
  have hlower : 'p' ∈ Text.lower (repo ++ "-" ++ event).toList :=
    List.mem_flatMap.mpr ⟨'p', by simp [hletter], by decide⟩
  exact ResourceName.sanitize_ne_empty hlower (by decide) (by decide) (by decide)

theorem resourceName_eq (hevent : event ∈ events.map Prod.fst) :
    resourceName repo event = ResourceName.sanitize (repo ++ "-" ++ event)
      ResourceName.maxLength := by
  unfold resourceName
  exact if_neg (sanitize_event_ne_empty hevent)

/-- A name of a resource is one word. -/
theorem legible_resourceName (repo event : String) :
    IsPlainWord (resourceName repo event) ∨ IsQuoted (resourceName repo event) := by
  have hname : ∀ c ∈ (resourceName repo event).toList, ResourceName.isNameChar c = true := by
    intro c hc
    unfold resourceName at hc
    dsimp only at hc
    split at hc
    · exact ResourceName.isNameChar_of_mem_sanitize hc
    · exact ResourceName.isNameChar_of_mem_sanitize hc
  refine legible_of_unspaced (fun c hc => ?_) (fun hc => absurd (hname ' ' hc) (by decide))
  obtain ⟨hlow, hhigh⟩ := ResourceName.toNat_of_isNameChar (hname c hc)
  refine ⟨?_, ?_⟩
  · simp [isTyped]
    omega
  · rintro rfl
    exact absurd hlow (by decide)

/-- A printable line between brackets is quoted. -/
theorem legible_bracketed {s : String} (hs : IsLine s) :
    IsQuoted ("[" ++ s ++ "]") := by
  have hchars : ("[" ++ s ++ "]").toList = '[' :: (s.toList ++ [']']) := by simp
  refine isQuoted_of_mark (fun c hc => ?_) (by rw [hchars]; rfl)
  rw [hchars, List.mem_cons, List.mem_append, List.mem_singleton] at hc
  rcases hc with rfl | hc | rfl
  · decide
  · exact hs c hc
  · decide

/-- **All texts of the starter run are legible.** -/
theorem legible_document (hevent : IsLine event) (hbranch : IsLine branch) :
    (document repo event branch).Legible := by
  -- The texts that do not depend on the parameters are decided, part by part.
  have hannotations : (Tree.mapping [
      (annotationKey "on-event", .text ("[" ++ event ++ "]")),
      (annotationKey "on-target-branch", .text ("[" ++ branch ++ "]")),
      (annotationKey "max-keep-runs", .text maxKeepRuns)]).Legible := by
    have hkeys :
        [annotationKey "on-event", annotationKey "on-target-branch",
          annotationKey "max-keep-runs"].Nodup := by
      decide +kernel
    exact ⟨List.cons_ne_nil _ _, hkeys, by decide +kernel, .inr (legible_bracketed hevent), by
      decide +kernel,
      .inr (legible_bracketed hbranch), by decide +kernel, by decide +kernel, trivial⟩
  have hmetadata : (Tree.mapping [
      ("name", .text (resourceName repo event)),
      ("annotations", .mapping [
        (annotationKey "on-event", .text ("[" ++ event ++ "]")),
        (annotationKey "on-target-branch", .text ("[" ++ branch ++ "]")),
        (annotationKey "max-keep-runs", .text maxKeepRuns)])]).Legible := by
    have hkeys : ["name", "annotations"].Nodup := by decide
    exact ⟨List.cons_ne_nil _ _, hkeys, by decide +kernel, legible_resourceName repo event, by
      decide +kernel,
      hannotations, trivial⟩
  have hkeys : ["apiVersion", "kind", "metadata", "spec"].Nodup := by decide
  exact ⟨List.cons_ne_nil _ _, hkeys, by decide +kernel, by decide +kernel, by decide +kernel, by
    decide +kernel,
    by decide +kernel, hmetadata, by decide +kernel, by decide +kernel, trivial⟩

/-- **The starter run is read as it was meant**, for every repository, both events and every branch
of printable characters of ASCII, however long. -/
theorem parse_text (hevent : event ∈ events.map Prod.fst)
    (hbranch : ∀ c ∈ branch.toList, 0x20 ≤ c.toNat ∧ c.toNat ≤ 0x7e) :
    Yaml.parse (text repo event branch) =
      .ok (resource (ResourceName.sanitize (repo ++ "-" ++ event) ResourceName.maxLength) event
        branch) := by
  have heventLine : IsLine event := by
    revert hevent
    simp only [events, List.map_cons, List.map_nil, List.mem_cons, List.not_mem_nil, or_false]
    rintro (rfl | rfl) <;> decide
  have hbranchLine : IsLine branch := by
    intro c hc
    obtain ⟨hlow, hhigh⟩ := hbranch c hc
    refine ⟨by simp [isTyped, hlow, hhigh], ?_⟩
    rintro rfl
    exact absurd hlow (by decide)
  have hread : Yaml.parse (text repo event branch) = .ok (document repo event branch).value :=
    Yaml.parse_write (legible_document heventLine hbranchLine) (fun s h => nomatch h)
  rw [hread, ← resourceName_eq hevent]
  rfl

/-- A branch with quotes and marks is read as it is. -/
theorem parse_text_quotes :
    "push" ∈ events.map Prod.fst ∧ (∀ c ∈ "it's #1: 'x'".toList, 0x20 ≤ c.toNat ∧ c.toNat ≤ 0x7e) ∧
      Yaml.parse (text "My_Repo" "push" "it's #1: 'x'") =
        .ok (resource "my-repo-push" "push" "it's #1: 'x'") := by
  have hevent : "push" ∈ events.map Prod.fst := by decide
  have hprintable :
      "it's #1: 'x'".toList.all (fun c => 0x20 ≤ c.toNat && c.toNat ≤ 0x7e) = true := by decide
  have hbranch : ∀ c ∈ "it's #1: 'x'".toList, 0x20 ≤ c.toNat ∧ c.toNat ≤ 0x7e :=
    fun c hc => by simpa using List.all_eq_true.mp hprintable c hc
  have hname :
      ResourceName.sanitize ("My_Repo" ++ "-" ++ "push") ResourceName.maxLength =
        "my-repo-push" := by
    decide +kernel
  refine ⟨hevent, hbranch, ?_⟩
  rw [← hname]
  exact parse_text hevent hbranch

end Starter

end PipelineRuns
