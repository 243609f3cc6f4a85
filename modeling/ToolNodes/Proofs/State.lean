import ToolNodes.State
import ToolNodes.Proofs.Json.ReadBack
import ToolNodes.Proofs.Node
import ToolNodes.Proofs.Table

/-!
# States and their documents

A state prints as a document that reads back as its canonical form (`ofJson_ordered_toJson`). What a
registry holds is `Sound`: every node is in normal form under its own name, and the active name is a
registered one. Decoding makes only sound states, and a sound state is canonical unless a URL in it
ends with a blank.
-/

namespace ToolNodes.State

open Text

/-! ## Documents -/

theorem plain_ofText? (text : Option String) : (Json.ofText? text).Plain := by
  cases text <;> trivial

theorem height_ofText? (text : Option String) : (Json.ofText? text).height = 0 := by
  cases text <;> rfl

theorem ordered_ofText? (text : Option String) :
    (Json.ofText? text).ordered = Json.ofText? text := by
  cases text <;> rfl

theorem plain_nodeJson (node : Node) : (nodeJson node).Plain :=
  ⟨trivial, trivial, plain_ofText? node.token, trivial⟩

theorem height_nodeJson (node : Node) : (nodeJson node).height = 1 := by
  simp [nodeJson, Json.height, Json.heightMembers, height_ofText?]

theorem plain_toJson (s : State) : s.toJson.Plain := by
  refine ⟨plain_ofText? s.active, ?_, trivial⟩
  show Json.PlainMembers _
  induction s.nodes.entries with
  | nil => trivial
  | cons entry rest ih => exact ⟨plain_nodeJson entry.2, ih⟩

theorem height_toJson (s : State) : s.toJson.height ≤ Json.maxDepth := by
  have hmembers : ∀ entries : List (String × Node),
      Json.heightMembers (entries.map fun entry => (entry.1, nodeJson entry.2)) ≤ 1 := by
    intro entries
    induction entries with
    | nil => exact Nat.zero_le 1
    | cons entry rest ih =>
        simp only [List.map_cons, Json.heightMembers, height_nodeJson]
        omega
  have h := hmembers s.nodes.entries
  simp only [toJson, Json.height, Json.heightMembers, height_ofText?, Json.maxDepth]
  omega

/-- The fields of a printed node, as reading finds them. -/
theorem nodeOfJson?_ordered (key : String) (node : Node) :
    nodeOfJson? key (nodeJson node).ordered = usable? key node.url node.token := by
  have hurl : (nodeJson node).ordered.text? "url" = some node.url := by
    simp [nodeJson, Json.ordered, Json.orderedMembers, Json.text?, Json.get?, Entries.ofList,
      Entries.get?_insert, Json.string?]
  have htoken : (nodeJson node).ordered.text? "token" = node.token := by
    simp only [nodeJson, Json.ordered, Json.orderedMembers, Json.text?, Json.get?, Entries.ofList,
      List.foldl_cons, List.foldl_nil, Entries.get?_insert, ordered_ofText?]
    cases node.token <;> rfl
  have hobject : (nodeJson node).ordered.isObject = true := by
    simp [nodeJson, Json.ordered, Json.isObject, Json.members?]
  unfold nodeOfJson?
  rw [if_pos hobject, hurl, htoken, Option.bind_some]

theorem orderedMembers_nodes (entries : List (String × Node)) :
    Json.orderedMembers (entries.map fun entry => (entry.1, nodeJson entry.2)) =
      entries.map fun entry => (entry.1, (nodeJson entry.2).ordered) := by
  induction entries with
  | nil => rfl
  | cons entry rest ih =>
      rw [List.map_cons, Json.orderedMembers, ih]
      rfl

/-- **The document of a state describes its canonical form.** -/
theorem ofJson_ordered_toJson (s : State) : ofJson s.toJson.ordered = s.canonical := by
  have hnodes : (s.toJson.ordered.get? "nodes").bind Json.members? =
      some (s.nodes.entries.map fun entry => (entry.1, (nodeJson entry.2).ordered)) := by
    simp only [toJson, Json.ordered, Json.orderedMembers, Json.get?, Entries.ofList,
      List.foldl_cons, List.foldl_nil, Entries.get?_insert, orderedMembers_nodes]
    exact congrArg some (Entries.ofList_of_ordered
      (Entries.ordered_map (fun node => (nodeJson node).ordered) s.nodes.ordered))
  have hactive : s.toJson.ordered.text? "active" = s.active := by
    simp only [toJson, Json.ordered, Json.orderedMembers, Json.text?, Json.get?, Entries.ofList,
      List.foldl_cons, List.foldl_nil, Entries.get?_insert, ordered_ofText?]
    cases s.active <;> rfl
  unfold ofJson canonical nodesOfMembers
  rw [hnodes, hactive]
  simp only [Option.getD_some, List.filterMap_map, Function.comp_def, nodeOfJson?_ordered]

/-! ## Canonical states -/

theorem entries_canonical (s : State) :
    s.canonical.nodes.entries = s.nodes.entries.filterMap fun e =>
      (usable? e.1 e.2.url e.2.token).map fun node => (e.1, node) :=
  Entries.ofList_of_ordered
    (Entries.ordered_filterMap (fun key (node : Node) => usable? key node.url node.token)
      s.nodes.ordered)

/-- The canonical form keeps a node exactly if its URL is usable, under its own key. -/
theorem get?_canonical (s : State) (key : String) :
    s.canonical.nodes.get? key =
      (s.nodes.get? key).bind fun node => usable? key node.url node.token := by
  unfold Table.get?
  rw [entries_canonical]
  exact Entries.get?_filterMap (fun key (node : Node) => usable? key node.url node.token)
    s.nodes.ordered key

theorem usable?_eq_some {key url : String} {token : Option String} {node : Node}
    (h : usable? key url token = some node) :
    (normalUrl url).isEmpty = false ∧ node = Node.normal key url token := by
  unfold usable? at h
  split at h
  · exact absurd h (by simp)
  · rename_i hempty
    exact ⟨by simpa using hempty, (Option.some.inj h).symm⟩

/-! ## Sound states -/

/-- What holds of every state that a registry is in. -/
structure Sound (s : State) : Prop where
  nodes : ∀ key node, s.nodes.get? key = some node → node.Sound key
  active : ∀ name, s.active = some name → s.nodes.contains name = true

theorem sound_empty : Sound empty where
  nodes := by
    intro key node h
    exact absurd h (by simp [empty, Table.get?, Entries.get?])
  active := by
    intro name h
    exact absurd h (by simp [empty])

theorem sound_ofUsable {pairs : List (String × Node)} {active : Option String}
    (h : ∀ key node, (key, node) ∈ pairs → node.Sound key) :
    Sound ⟨active.filter (Table.ofList pairs).contains, Table.ofList pairs⟩ where
  nodes := fun key node hnode => h key node (Table.get?_ofList_mem hnode)
  active := fun _ hname => (Option.filter_eq_some_iff.mp hname).2

/-- **Decoding makes sound states**, whatever the document. -/
theorem sound_ofJson (doc : Json) : Sound (ofJson doc) := by
  unfold ofJson nodesOfMembers
  apply sound_ofUsable
  intro key node h
  obtain ⟨m, -, hm⟩ := List.mem_filterMap.mp h
  obtain ⟨n, hn, heq⟩ := Option.map_eq_some_iff.mp hm
  cases heq
  unfold nodeOfJson? at hn
  split at hn
  · obtain ⟨url, -, husable⟩ := Option.bind_eq_some_iff.mp hn
    obtain ⟨hurl, rfl⟩ := usable?_eq_some husable
    exact Node.sound_normal hurl
  · exact absurd hn (by simp)

/-- A sound node is kept as it is exactly if its URL does not end with a blank. -/
theorem usable?_eq_self_iff {key : String} {node : Node} (h : node.Sound key) :
    usable? key node.url node.token = some node ↔ endsBlank node.url = false := by
  constructor
  · intro hkept
    obtain ⟨-, hnode⟩ := usable?_eq_some hkept
    have hurl : normalUrl node.url = node.url := (congrArg Node.url hnode).symm
    exact (normalUrl_eq_self_iff h.url_starts h.url_ends).mp hurl
  · intro hend
    have hurl := (normalUrl_eq_self_iff h.url_starts h.url_ends).mpr hend
    unfold usable?
    rw [if_neg, h.normal_eq hend]
    rw [hurl]
    intro hempty
    exact h.url_ne (by simpa using hempty)

theorem canonical_eq_self {s : State} (h : s.Sound)
    (hends : ∀ key node, s.nodes.get? key = some node → endsBlank node.url = false) :
    s.canonical = s := by
  have hentries : (s.nodes.entries.filterMap fun e =>
      (usable? e.1 e.2.url e.2.token).map fun node => (e.1, node)) = s.nodes.entries := by
    rw [List.filterMap_congr (g := some), List.filterMap_some]
    intro e he
    have hget := Table.get?_eq_some_iff.mpr he
    rw [(usable?_eq_self_iff (h.nodes _ _ hget)).mpr (hends _ _ hget)]
    rfl
  have hactive : s.active.filter s.nodes.contains = s.active := by
    cases ha : s.active with
    | none => rfl
    | some name => simp [h.active name ha]
  unfold canonical
  rw [hentries, Table.ofList_entries]
  simp only [hactive]

end ToolNodes.State
