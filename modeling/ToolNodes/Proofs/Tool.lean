import ToolNodes.Proofs.Json.Sorted
import ToolNodes.Tool

/-!
# Tool lists lose no tool

A payload lists its tools one after the other (`Json.Lists`), or by key (`Json.Keyed`), or not at all. Each
item is a tool as it stands. Each keyed entry is one too, with its key put in under `name` when it has no
such member (`Describes`); so a keyed tool is nameless only if its entry has a `name` that is no string and
no `id` that is one (`not_always_named`).
-/

namespace ToolNodes

/-! ## Payloads -/

namespace Json

/-- The payload is an array of the items, or an object with that array under `tools`. -/
inductive Lists : Json → List Json → Prop where
  | bare (items : List Json) : Lists (.array items) items
  | wrapped {payload : Json} {items : List Json} (has : payload.get? "tools" = some (.array items)) :
      Lists payload items

/-- The payload is an object with an object of objects under `tools`. -/
structure Keyed (payload : Json) (entries : List (String × Json)) : Prop where
  has : payload.get? "tools" = some (.object entries)
  objects : ∀ entry ∈ entries, entry.2.isObject = true

variable {payload : Json} {entries : List (String × Json)}

theorem Lists.sorted {items : List Json} (h : payload.Lists items) (hsorted : payload.Sorted) :
    AllSorted items := by
  cases h with
  | bare => exact hsorted
  | wrapped has => exact sorted_of_get? hsorted has

theorem Keyed.sorted (h : payload.Keyed entries) (hsorted : payload.Sorted) :
    ∀ entry ∈ entries, entry.2.Sorted := by
  have hentries := sorted_of_get? hsorted h.has
  rw [Json.Sorted, membersSorted_iff] at hentries
  exact hentries.2

/-- The keys of a sorted payload are in order. -/
theorem Keyed.ordered (h : payload.Keyed entries) (hsorted : payload.Sorted) :
    Entries.Ordered entries :=
  ordered_of_get? hsorted h.has

end Json

namespace Tool

/-! ## Keyed tools -/

/-- The tool is the entry under a key: it has every member of the entry, and none but these, except that its
`name` is the key if the entry has no such member. -/
structure Describes (key : String) (entry : Json) (tool : Tool) : Prop where
  isObject : tool.value.isObject = true
  kept : ∀ k v, entry.get? k = some v → tool.value.get? k = some v
  added : ∀ k v, tool.value.get? k = some v → entry.get? k = none →
    k = "name" ∧ v = .string key
  sorted : entry.Sorted → tool.value.Sorted
  ownName : ∀ name, entry.get? "name" = some (.string name) → tool.name? = some name
  keyName : entry.get? "name" = none → tool.name? = some key
  otherName : ∀ v, entry.get? "name" = some v → v.string? = none → tool.name? = entry.text? "id"

variable {payload v : Json} {items : List Json} {entries members : List (String × Json)} {key : String}

theorem name?_object (members : List (String × Json)) :
    Tool.name? ⟨.object members⟩ =
      ((Json.object members).text? "name").or ((Json.object members).text? "id") := rfl

/-- An entry with a member `name` is the tool as it stands. -/
theorem describes_of_named (h : Entries.get? "name" members = some v) (key : String) :
    Describes key (.object members) ⟨.object members⟩ where
  isObject := rfl
  kept := fun _ _ hk => hk
  added := by
    intro k w hk hnone
    rw [hnone] at hk
    exact absurd hk (by simp)
  sorted := id
  ownName := by
    intro name hown
    simp [name?_object, Json.text?, hown, Json.string?]
  keyName := fun hnone => absurd (h.symm.trans hnone) (by simp)
  otherName := by
    intro w hw hstring
    simp [name?_object, Json.text?, hw, hstring]

/-- An entry without one gets its key put in. -/
theorem describes_of_unnamed (h : Entries.get? "name" members = none) (key : String) :
    Describes key (.object members) ⟨.object (Entries.insert "name" (.string key) members)⟩ := by
  have hget : ∀ k, (Json.object (Entries.insert "name" (.string key) members)).get? k =
      if "name" = k then some (.string key) else (Json.object members).get? k :=
    fun k => Entries.get?_insert _ _ _ _
  have hno : ∀ w, (Json.object members).get? "name" ≠ some w := by
    intro w hw
    exact absurd (h.symm.trans hw) (by simp)
  constructor
  case isObject => rfl
  case kept =>
    intro k w hk
    rw [hget, if_neg]
    · exact hk
    · rintro rfl
      exact hno w hk
  case added =>
    intro k w hk hnone
    rw [hget] at hk
    split at hk
    · rename_i hname
      exact ⟨hname.symm, (Option.some.inj hk).symm⟩
    · exact absurd (hnone.symm.trans hk) (by simp)
  case sorted => exact fun hsorted => Json.sorted_insert hsorted trivial
  case ownName => exact fun name hown => absurd hown (hno _)
  case keyName =>
    intro _
    simp [name?_object, Json.text?, hget, Json.string?]
  case otherName => exact fun w hw => absurd hw (hno w)

/-- **An entry is kept as it stands, and named by its key if it has no name.** -/
theorem describes_ofEntry (key : String) (members : List (String × Json)) :
    Describes key (.object members) (ofEntry key (.object members)) := by
  cases h : Entries.get? "name" members with
  | some v =>
      have hentry : ofEntry key (.object members) = ⟨.object members⟩ := by simp [ofEntry, h]
      rw [hentry]
      exact describes_of_named h key
  | none =>
      have hentry : ofEntry key (.object members) =
          ⟨.object (Entries.insert "name" (.string key) members)⟩ := by simp [ofEntry, h]
      rw [hentry]
      exact describes_of_unnamed h key

/-! ## Listings -/

theorem ofListing_of_lists (h : payload.Lists items) : ofListing payload = items.map Tool.mk := by
  cases h with
  | bare => rfl
  | wrapped has =>
      obtain ⟨members, rfl, -⟩ := Json.object_of_get? has
      simp [ofListing, has]

theorem ofListing_of_keyed (h : payload.Keyed entries) :
    ofListing payload = entries.map fun entry => ofEntry entry.1 entry.2 := by
  obtain ⟨members, rfl, -⟩ := Json.object_of_get? h.has
  have hall : (entries.all fun entry => entry.2.isObject) = true := List.all_eq_true.2 h.objects
  simp [ofListing, h.has, hall]

theorem describes_of_keyed (h : payload.Keyed entries) :
    List.Forall₂ (fun entry tool => Describes entry.1 entry.2 tool) entries (ofListing payload) := by
  rw [ofListing_of_keyed h, List.forall₂_map_right_iff, List.forall₂_same]
  intro entry hentry
  obtain ⟨members, hmembers⟩ := Json.object_of_isObject (h.objects entry hentry)
  rw [hmembers]
  exact describes_ofEntry entry.1 members

theorem ofListing_of_neither (hlists : ∀ items, ¬ payload.Lists items)
    (hkeyed : ∀ entries, ¬ payload.Keyed entries) : ofListing payload = [] := by
  unfold ofListing
  split
  · rename_i items
    exact absurd (.bare items) (hlists items)
  · split
    · rename_i items hget
      exact absurd (.wrapped hget) (hlists items)
    · rename_i entries hget
      refine if_neg fun hall => hkeyed entries ⟨hget, ?_⟩
      exact List.all_eq_true.1 hall
    · rfl

theorem sorted_of_mem_ofListing (hsorted : payload.Sorted) {tool : Tool}
    (h : tool ∈ ofListing payload) : tool.value.Sorted := by
  by_cases hlists : ∃ items, payload.Lists items
  · obtain ⟨items, hitems⟩ := hlists
    rw [ofListing_of_lists hitems, List.mem_map] at h
    obtain ⟨item, hmem, rfl⟩ := h
    exact Json.allSorted_iff.mp (hitems.sorted hsorted) item hmem
  · by_cases hkeyed : ∃ entries, payload.Keyed entries
    · obtain ⟨entries, hentries⟩ := hkeyed
      rw [ofListing_of_keyed hentries, List.mem_map] at h
      obtain ⟨⟨key, entry⟩, hmem, rfl⟩ := h
      obtain ⟨members, rfl⟩ := Json.object_of_isObject (hentries.objects _ hmem)
      exact (describes_ofEntry key members).sorted (hentries.sorted hsorted _ hmem)
    · rw [ofListing_of_neither (not_exists.mp hlists) (not_exists.mp hkeyed)] at h
      exact absurd h List.not_mem_nil

/-- Of a payload that is read from bytes the keyed entries are in the order of their keys, and every tool
has its members in order. -/
theorem sorted_of_body {body : List UInt8} (h : Json.ofBytes body = .ok payload) :
    (∀ entries, payload.Keyed entries → Entries.Ordered entries) ∧
    ∀ tool ∈ ofListing payload, tool.value.Sorted :=
  ⟨fun _ hkeyed => hkeyed.ordered (Json.sorted_of_ofBytes h),
    fun _ hmem => sorted_of_mem_ofListing (Json.sorted_of_ofBytes h) hmem⟩

/-- **A tool list is read without losing, merging or changing a tool.** Of a bare array, or one under
`tools`, every item is a tool as it stands, in the same order. Of an object of objects under `tools`, which
is in the order of its keys, every entry is one tool in the same order: with all its members and no others
but a `name`, which is its key if the entry has none. Every other payload lists no tool. -/
theorem listed_of_payload (payload : Json) :
    (∀ items, payload.Lists items → ofListing payload = items.map Tool.mk) ∧
    (∀ entries, payload.Keyed entries → (payload.Sorted → Entries.Ordered entries) ∧
      List.Forall₂ (fun entry tool => Describes entry.1 entry.2 tool) entries (ofListing payload)) ∧
    ((∀ items, ¬ payload.Lists items) → (∀ entries, ¬ payload.Keyed entries) →
      ofListing payload = []) :=
  ⟨fun _ hlists => ofListing_of_lists hlists,
    fun _ hkeyed => ⟨hkeyed.ordered, describes_of_keyed hkeyed⟩, ofListing_of_neither⟩

/-- A keyed tool whose entry has no string for a `name`, but has one, is nameless. -/
theorem not_always_named :
    ¬ ∀ (payload : Json) (entries : List (String × Json)), payload.Sorted → payload.Keyed entries →
      List.Forall₂ (fun entry tool => tool.name? = (entry.2.text? "name").or (some entry.1)) entries
        (ofListing payload) := by
  intro hall
  let entries : List (String × Json) := [("t", .object [("name", .null)])]
  let payload : Json := .object [("tools", .object entries)]
  have hsorted : payload.Sorted := by
    simp [payload, entries, Json.Sorted, Json.MembersSorted, Entries.Ordered]
  have hkeyed : payload.Keyed entries := ⟨rfl, by simp [entries, Json.isObject, Json.members?]⟩
  have hnames := hall payload entries hsorted hkeyed
  have hlisted : ofListing payload = [⟨.object [("name", .null)]⟩] := rfl
  rw [hlisted, List.forall₂_cons] at hnames
  exact absurd hnames.1 (by decide)

end Tool

end ToolNodes
