import PipelineRuns.Proofs.Bundles
import PipelineRuns.Proofs.Lists
import PipelineRuns.Proofs.Text

/-!
# Addresses of Repositories

A Repository has a name and a namespace. A shelf looks it up under this pair; a cluster is asked for
one path, in which the namespace and the name stand as they are (`Client.split_path`). A slash in
either of them is a boundary of segments like those around it. So the path does not always tell
where the namespace ends: two pairs have the same path if and only if they are equal or one of them
overlaps the other (`Client.Overlaps`), with the segment `repositories` once in the name of the one
and once in the namespace of the other. And only without a slash in the pair is the path one of a
Repository, of as many segments as that of any other (`Client.depth`).

Main statement: `Client.fetch_addresses`. Pairs that overlap are seen after it.
-/

namespace PipelineRuns

/-! ### Pieces -/

namespace Text

variable {c : Char}

/-- At a separator, the pieces before it end and those after it begin. -/
theorem split_append (c : Char) (s t : String) :
    split c (s ++ String.singleton c ++ t) = split c s ++ split c t := by
  have hlists :
      splitAt c (s.toList ++ c :: t.toList) = splitAt c s.toList ++ splitAt c t.toList := by
    rw [splitAt_eq_splitOn, splitAt_eq_splitOn, splitAt_eq_splitOn, List.splitOn_append_cons_self]
  unfold split
  rw [← List.map_append, ← hlists, String.toList_append, String.toList_append,
    String.toList_singleton, List.append_assoc, List.singleton_append]

theorem split_inj {s t : String} : split c s = split c t ↔ s = t := by
  refine ⟨fun h => ?_, congrArg (split c)⟩
  rw [← intercalate_split c s, h, intercalate_split]

theorem one_le_length_split (c : Char) (s : String) : 1 ≤ (split c s).length := by
  unfold split
  rw [List.length_map, splitAt_eq_splitOn, Nat.one_le_iff_ne_zero, Ne, List.length_eq_zero_iff]
  exact List.splitOn_ne_nil c s.toList

/-- A text is in one piece exactly if it cannot be cut. -/
theorem length_split_eq_one_iff {s : String} : (split c s).length = 1 ↔ c ∉ s.toList := by
  constructor
  · intro hone hmem
    obtain ⟨front, back, hs⟩ := List.append_of_mem hmem
    have hcut : s = String.ofList front ++ String.singleton c ++ String.ofList back := by
      rw [← String.toList_inj, hs]
      simp
    have hfront := one_le_length_split c (String.ofList front)
    have hback := one_le_length_split c (String.ofList back)
    rw [hcut, split_append, List.length_append] at hone
    omega
  · intro hc
    have hwhole : split c s = [s] := by
      have hpieces :=
        split_intercalate (List.cons_ne_nil s []) (fun p hp => List.mem_singleton.mp hp ▸ hc)
      rwa [String.intercalate_singleton] at hpieces
    rw [hwhole, List.length_singleton]

end Text

namespace Client

variable {name ns name' ns' : String}

/-! ### Segments of a path -/

/-- The path under which a server has its namespaces. -/
def namespaces : String :=
  "/apis/" ++ Repository.group ++ "/" ++ Repository.version ++ "/namespaces"

/-- The segments of a path: the namespace and the name contribute theirs. -/
theorem split_path (name ns : String) :
    Text.split '/' (path name ns) =
      Text.split '/' namespaces ++
        (Text.split '/' ns ++ Repository.plural :: Text.split '/' name) := by
  have hplural : Text.split '/' Repository.plural = [Repository.plural] := by decide
  have hslash : "/" = String.singleton '/' := by decide
  have hcollection : "/namespaces/" = "/namespaces" ++ String.singleton '/' := by decide
  have hpath : path name ns = namespaces ++ String.singleton '/' ++
      (ns ++ String.singleton '/' ++ (Repository.plural ++ String.singleton '/' ++ name)) := by
    unfold path namespaces
    simp only [hslash, hcollection, String.append_assoc]
  rw [hpath, Text.split_append, Text.split_append, Text.split_append, hplural,
    List.singleton_append]

/-- The number of segments that the path of a Repository has. -/
def depth : Nat := 8

theorem length_split_path_eq_depth_iff :
    (Text.split '/' (path name ns)).length = depth ↔ '/' ∉ name.toList ∧ '/' ∉ ns.toList := by
  have hfront : (Text.split '/' namespaces).length = 5 := by decide
  have hname := Text.one_le_length_split '/' name
  have hns := Text.one_le_length_split '/' ns
  -- The front and the collection have six segments, so two are left for the namespace and the name,
  -- one for each.
  rw [← Text.length_split_eq_one_iff, ← Text.length_split_eq_one_iff, split_path,
    List.length_append, List.length_append, List.length_cons, hfront, depth]
  omega

/-- The second namespace goes on where the first one ends, with the segment of the collection; and
what it goes on with is what the first name begins with, in front of the second one. -/
def Overlaps (name ns name' ns' : String) : Prop :=
  ∃ middle, Text.split '/' ns' = Text.split '/' ns ++ Repository.plural :: middle ∧
    Text.split '/' name = middle ++ Repository.plural :: Text.split '/' name'

/-- It takes a slash in the name and one in the namespace. -/
theorem Overlaps.mem (h : Overlaps name ns name' ns') : '/' ∈ name.toList ∧ '/' ∈ ns'.toList := by
  obtain ⟨middle, hns', hname⟩ := h
  have hlengthName := congrArg List.length hname
  have hlengthNs := congrArg List.length hns'
  have hback := Text.one_le_length_split '/' name'
  have hfront := Text.one_le_length_split '/' ns
  -- Both texts have the segment of the collection and at least one more, so each of them is cut
  -- somewhere.
  rw [List.length_append, List.length_cons] at hlengthName hlengthNs
  constructor
  · by_contra hnone
    have hone := Text.length_split_eq_one_iff.mpr hnone
    omega
  · by_contra hnone
    have hone := Text.length_split_eq_one_iff.mpr hnone
    omega

theorem path_eq_iff :
    path name ns = path name' ns' ↔
      (name = name' ∧ ns = ns') ∨ Overlaps name ns name' ns' ∨ Overlaps name' ns' name ns := by
  have hsegments : path name ns = path name' ns' ↔
      Text.split '/' ns ++ Repository.plural :: Text.split '/' name =
        Text.split '/' ns' ++ Repository.plural :: Text.split '/' name' := by
    rw [← Text.split_inj (c := '/'), split_path, split_path, List.append_cancel_left_eq]
  -- The mark in both lists is the segment of the collection.
  rw [hsegments, append_cons_inj, Text.split_inj, Text.split_inj, and_comm (a := ns = ns')]
  rfl

/-! ### Requests -/

theorem requests_fetch (client : Client) (wire : Wire) (name ns : String) (before : Effects) :
    (Action.from before (client.fetch wire name ns)).2.requests =
      before.requests ++ [client.request name ns] := by
  unfold fetch
  rw [Action.from_bind, Action.from_note]
  dsimp only
  rw [Action.from_bind, Action.from_send]
  dsimp only
  -- Whatever the reply is, reading it sends nothing more.
  obtain ⟨records, hreply⟩ := client.onlyNotes_interpret name ns (wire (client.request name ns))
    ⟨before.journal ++ [.debug channel ("GET " ++ path name ns)],
      before.requests ++ [client.request name ns], before.bundles⟩
  rw [hreply]

theorem url_eq_iff (client : Client) :
    (client.request name ns).url = (client.request name' ns').url ↔ path name ns = path name' ns' :=
  String.append_right_inj client.server

/-- **The addresses of requests.** Fetching sends one request. Its address is that of two pairs if
and only if one of them overlaps the other, which takes a slash in a name and one in a namespace;
and it is one of a Repository only if the pair has no slash. A shelf that is asked for a pair never
gives the Repository of another one. The address is the one that is handed to the session of
requests: what the session makes of question marks, number signs, percent signs and double dots in
it is not considered. -/
theorem fetch_addresses (client : Client) (name ns name' ns' : String) :
    (∀ wire before, (Action.from before (client.fetch wire name ns)).2.requests =
      before.requests ++ [client.request name ns]) ∧
    ((client.request name ns).url = (client.request name' ns').url ↔
      (name = name' ∧ ns = ns') ∨ Overlaps name ns name' ns' ∨ Overlaps name' ns' name ns) ∧
    ((client.request name ns).url = (client.request name' ns').url →
      (name = name' ∧ ns = ns') ∨ ('/' ∈ name.toList ∧ '/' ∈ ns'.toList) ∨
      ('/' ∈ name'.toList ∧ '/' ∈ ns.toList)) ∧
    ((client.request name ns).url = client.server ++ path name ns ∧
      ((Text.split '/' (path name ns)).length = depth ↔ '/' ∉ name.toList ∧ '/' ∉ ns.toList)) ∧
    ∀ (shelf : Shelf) (repo : Repository), shelf.fetch name ns = .ok repo →
      repo.name = name ∧ repo.ns = ns := by
  have hsame : (client.request name ns).url = (client.request name' ns').url ↔
      (name = name' ∧ ns = ns') ∨ Overlaps name ns name' ns' ∨ Overlaps name' ns' name ns := by
    rw [url_eq_iff, path_eq_iff]
  refine ⟨fun wire before => client.requests_fetch wire name ns before, hsame, fun hurl => ?_,
    ⟨rfl, length_split_path_eq_depth_iff⟩, fun shelf repo hfetch => ?_⟩
  -- An overlap puts a slash into a name and into a namespace.
  · exact (hsame.mp hurl).imp_right (Or.imp Overlaps.mem Overlaps.mem)
  · unfold Shelf.fetch at hfetch
    split at hfetch
    · next found hfound =>
      obtain rfl := Except.ok.inj hfetch
      obtain ⟨hns, hname⟩ := Shelf.hasKey_iff.mp (List.find?_some hfound)
      exact ⟨hname, hns⟩
    · exact nomatch hfetch

/-- A slash in the name and one in the namespace are enough for two pairs to have one address. -/
theorem address_not_always_one_key :
    ¬ ∀ (client : Client) (name ns name' ns' : String), name ≠ "" → ns ≠ "" → name' ≠ "" →
      ns' ≠ "" →
      (name, ns) ≠ (name', ns') → (client.request name ns).url ≠
        (client.request name' ns').url := by
  intro h
  refine h ⟨"https://h", none, .systemRoots, 30, none⟩ "b" "a/repositories/x" "x/repositories/b" "a"
    ?_ ?_ ?_ ?_ ?_ ?_
  all_goals decide

end Client

end PipelineRuns
