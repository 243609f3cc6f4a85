import ToolNodes.Proofs.Json.Sorted
import ToolNodes.Proofs.Store.Reload

/-!
# Decoding goes entry by entry

A document can be damaged in one place. What it registers under a key is told by the entry under that key
and by nothing else (`get?_ofJson`): by no other entry, and by no name inside. So two documents that differ
in one entry decode to states that differ under its key at most, and their active names differ only if it
is the one that the documents select (`frame_of_differAt`). A document that is read has its members in
order, so this holds of the states that two files load as (`load_of_differAt`).
-/

namespace ToolNodes.State

open Text

/-! ## Entries -/

/-- The entry of a document under a key: the member of its object of nodes. -/
def entryAt? (doc : Json) (key : String) : Option Json := (doc.get? "nodes").bind (Json.get? key)

/-- What is kept of an entry under a key: the key as the name, what is kept of its URL if that is a string
and something is left, and its token if that is a string and not blank. -/
structure EntryKept (key : String) (entry : Json) (kept : Node) : Prop where
  name_eq : kept.name = key
  url_kept : ∃ given, entry.get? "url" = some (.string given) ∧ KeptUrl given.toList kept.url.toList
  url_ne : kept.url ≠ ""
  token_iff : ∀ t, kept.token = some t ↔
    entry.get? "token" = some (.string t) ∧ isBlankText t = false

/-- An entry that is an object with a string for a URL, of which something is left. -/
def Usable (entry : Json) : Prop :=
  ∃ members given, entry = .object members ∧ Entries.get? "url" members = some (.string given) ∧
    normalUrl given ≠ ""

variable {key : String} {entry : Json} {kept : Node}

theorem text?_eq_some_iff {v : Json} {text : String} :
    v.text? key = some text ↔ v.get? key = some (.string text) := by
  unfold Json.text?
  rw [Option.bind_eq_some_iff]
  constructor
  · rintro ⟨member, hmember, htext⟩
    cases member with
    | string s => rw [hmember, Option.some.inj htext]
    | null | bool _ | number _ | array _ | object _ => exact absurd htext (by simp [Json.string?])
  · exact fun h => ⟨_, h, rfl⟩

/-- An entry whose URL is a string is kept as a node with this URL and its token would be. -/
theorem nodeOfJson?_of_url {given : String} (h : entry.get? "url" = some (.string given)) :
    nodeOfJson? key entry = usable? key given (entry.text? "token") := by
  obtain ⟨members, rfl, -⟩ := Json.object_of_get? h
  have hobject : (Json.object members).isObject = true := rfl
  unfold nodeOfJson?
  rw [if_pos hobject, text?_eq_some_iff.mpr h, Option.bind_some]

theorem url_of_nodeOfJson? (h : nodeOfJson? key entry = some kept) :
    ∃ given, entry.get? "url" = some (.string given) := by
  unfold nodeOfJson? at h
  split at h
  · obtain ⟨given, hgiven, -⟩ := Option.bind_eq_some_iff.mp h
    exact ⟨given, text?_eq_some_iff.mp hgiven⟩
  · exact absurd h (by simp)

/-- **An entry is decoded as what is kept of it.** -/
theorem nodeOfJson?_eq_some_iff : nodeOfJson? key entry = some kept ↔ EntryKept key entry kept := by
  constructor
  · intro h
    obtain ⟨given, hgiven⟩ := url_of_nodeOfJson? h
    rw [nodeOfJson?_of_url hgiven] at h
    have hkept := (@usable?_eq_some_iff key ⟨key, given, entry.text? "token"⟩ kept).mp h
    refine ⟨hkept.name_eq, ⟨given, hgiven, hkept.url_kept⟩, hkept.url_ne, ?_⟩
    intro t
    rw [hkept.token_iff, text?_eq_some_iff]
  · intro h
    obtain ⟨given, hgiven, hurl⟩ := h.url_kept
    rw [nodeOfJson?_of_url hgiven]
    refine (@usable?_eq_some_iff key ⟨key, given, entry.text? "token"⟩ kept).mpr
      ⟨h.name_eq, hurl, h.url_ne, ?_⟩
    intro t
    rw [h.token_iff, text?_eq_some_iff]

theorem isSome_nodeOfJson?_iff : (nodeOfJson? key entry).isSome = true ↔ Usable entry := by
  constructor
  · intro h
    obtain ⟨kept, hnode⟩ := Option.isSome_iff_exists.mp h
    have hkept := nodeOfJson?_eq_some_iff.mp hnode
    obtain ⟨given, hgiven, hurl⟩ := hkept.url_kept
    obtain ⟨members, rfl, hmember⟩ := Json.object_of_get? hgiven
    refine ⟨members, given, rfl, hmember, ?_⟩
    rw [← keptUrl_iff.mp hurl]
    exact hkept.url_ne
  · rintro ⟨members, given, rfl, hmember, hne⟩
    have hgiven : (Json.object members).get? "url" = some (.string given) := hmember
    rw [nodeOfJson?_of_url hgiven]
    unfold usable?
    rw [if_neg]
    · rfl
    · simpa using hne

/-! ## Documents -/

/-- The entries of a document's nodes, none if it has no object of them. -/
def nodeEntries (doc : Json) : List (String × Json) :=
  ((doc.get? "nodes").bind Json.members?).getD []

theorem ordered_nodeEntries {doc : Json} (hdoc : doc.Sorted) : Entries.Ordered (nodeEntries doc) := by
  unfold nodeEntries
  cases hnodes : (doc.get? "nodes").bind Json.members? with
  | none => exact List.Pairwise.nil
  | some members =>
      obtain ⟨nodes, hget, hmembers⟩ := Option.bind_eq_some_iff.mp hnodes
      cases nodes with
      | object entries =>
          obtain rfl := Option.some.inj hmembers
          exact Json.ordered_of_get? hdoc hget
      | null | bool _ | number _ | string _ | array _ =>
          exact absurd hmembers (by simp [Json.members?])

theorem entryAt?_eq (doc : Json) (key : String) :
    entryAt? doc key = Entries.get? key (nodeEntries doc) := by
  unfold entryAt? nodeEntries
  cases doc.get? "nodes" with
  | none => rfl
  | some nodes => cases nodes <;> rfl

/-- **What is registered under a key is told by the entry under it.** -/
theorem get?_ofJson {doc : Json} (hdoc : doc.Sorted) (key : String) :
    (ofJson doc).nodes.get? key = (entryAt? doc key).bind (nodeOfJson? key) := by
  have hordered := ordered_nodeEntries hdoc
  have hkept := Entries.get?_filterMap nodeOfJson? hordered key
  rw [← entryAt?_eq, ← Entries.ofList_of_ordered (Entries.ordered_filterMap nodeOfJson? hordered)]
    at hkept
  exact hkept

theorem get?_ofJson_eq_some_iff {doc : Json} (hdoc : doc.Sorted) :
    (ofJson doc).nodes.get? key = some kept ↔
      ∃ entry, entryAt? doc key = some entry ∧ EntryKept key entry kept := by
  rw [get?_ofJson hdoc, Option.bind_eq_some_iff]
  simp only [nodeOfJson?_eq_some_iff]

theorem contains_ofJson_iff {doc : Json} (hdoc : doc.Sorted) :
    (ofJson doc).nodes.contains key = true ↔ ∃ entry, entryAt? doc key = some entry ∧ Usable entry := by
  unfold Table.contains
  rw [get?_ofJson hdoc]
  cases entryAt? doc key with
  | none => simp
  | some entry =>
      rw [Option.bind_some, isSome_nodeOfJson?_iff]
      simp

/-- The two documents differ in the entry under the key at most, as far as decoding looks at them. -/
structure DifferAt (key : String) (a b : Json) : Prop where
  others : ∀ other, other ≠ key → entryAt? a other = entryAt? b other
  active : a.get? "active" = b.get? "active"

variable {a b : Json}

/-- So do objects of nodes that are the same except under the key, in documents that select the same. -/
theorem differAt_of_nodes {entries entries' : List (String × Json)}
    (ha : a.get? "nodes" = some (.object entries)) (hb : b.get? "nodes" = some (.object entries'))
    (hothers : ∀ other, other ≠ key → Entries.get? other entries = Entries.get? other entries')
    (hactive : a.get? "active" = b.get? "active") : DifferAt key a b where
  others := by
    intro other hother
    unfold entryAt?
    rw [ha, hb]
    exact hothers other hother
  active := hactive

theorem DifferAt.get?_eq (h : DifferAt key a b) (ha : a.Sorted) (hb : b.Sorted) {other : String}
    (hother : other ≠ key) : (ofJson a).nodes.get? other = (ofJson b).nodes.get? other := by
  rw [get?_ofJson ha, get?_ofJson hb, h.others other hother]

theorem DifferAt.active_eq (h : DifferAt key a b) (ha : a.Sorted) (hb : b.Sorted)
    (hactive : a.text? "active" ≠ some key) : (ofJson a).active = (ofJson b).active := by
  have htext : b.text? "active" = a.text? "active" := by
    unfold Json.text?
    rw [h.active]
  show (a.text? "active").filter _ = (b.text? "active").filter _
  rw [htext]
  cases hname : a.text? "active" with
  | none => rfl
  | some name =>
      have hother : name ≠ key := by
        rintro rfl
        exact hactive hname
      have hcontains : (ofJson a).nodes.contains name = (ofJson b).nodes.contains name := by
        unfold Table.contains
        rw [h.get?_eq ha hb hother]
      show Option.filter (ofJson a).nodes.contains _ = Option.filter (ofJson b).nodes.contains _
      rw [Option.filter_some, Option.filter_some, hcontains]

/-- Two state files whose documents differ in the entry under one key at most load, and the same node or
none is registered under every other key. -/
theorem load_of_differAt {f g : FileStore} {text text' : String} (hf : f.text = .ok text)
    (hg : g.text = .ok text') (ha : Json.ofString text = .ok a) (hb : Json.ofString text' = .ok b)
    (h : DifferAt key a b) :
    ∃ s t, f.load = .ok s ∧ g.load = .ok t ∧
      ∀ other, other ≠ key → s.nodes.get? other = t.nodes.get? other := by
  refine ⟨ofJson a, ofJson b, FileStore.load_of_text hf ha, FileStore.load_of_text hg hb, ?_⟩
  intro other hother
  exact h.get?_eq (Json.sorted_of_ofString ha) (Json.sorted_of_ofString hb) hother

/-- **A damaged entry costs no other node.** When two documents differ in the entry under one key at most,
whatever stands there in either of them, the same node or none is registered under every other key. Under
the key itself each registers what is kept of its own entry, which is something exactly if the entry is
usable. The active names are the same unless it is the key that the documents select. -/
theorem frame_of_differAt (ha : a.Sorted) (hb : b.Sorted) (h : DifferAt key a b) :
    (∀ other, other ≠ key → (ofJson a).nodes.get? other = (ofJson b).nodes.get? other) ∧
    (∀ doc : Json, doc = a ∨ doc = b →
      (∀ kept, (ofJson doc).nodes.get? key = some kept ↔
        ∃ entry, entryAt? doc key = some entry ∧ EntryKept key entry kept) ∧
      ((ofJson doc).nodes.contains key = true ↔
        ∃ entry, entryAt? doc key = some entry ∧ Usable entry)) ∧
    (a.text? "active" ≠ some key → (ofJson a).active = (ofJson b).active) := by
  refine ⟨fun other hother => h.get?_eq ha hb hother, ?_, h.active_eq ha hb⟩
  rintro doc (rfl | rfl)
  · exact ⟨fun _ => get?_ofJson_eq_some_iff ha, contains_ofJson_iff ha⟩
  · exact ⟨fun _ => get?_ofJson_eq_some_iff hb, contains_ofJson_iff hb⟩

/-- An entry without a URL in place of a node that was there. -/
theorem frame_of_differAt_broken :
    let java : Json := .object [("token", .string "t"), ("url", .string "http://j/")]
    let doc (odd : Json) : Json :=
      .object [("active", .string "java"), ("nodes", .object [("java", java), ("odd", odd)])]
    let whole := doc (.object [("name", .string "java"), ("url", .string "http://o")])
    let broken := doc (.object [("token", .string "t")])
    (ofJson whole).nodes.get? "java" = (ofJson broken).nodes.get? "java" ∧
    (ofJson whole).nodes.get? "odd" = some ⟨"odd", "http://o", none⟩ ∧
    (ofJson broken).nodes.contains "odd" = false ∧
    (ofJson whole).active = (ofJson broken).active := by
  intro java doc whole broken
  have hpair : ∀ {key key' : String} {v v' : Json}, key < key' → v.Sorted → v'.Sorted →
      Json.Sorted (.object [(key, v), (key', v')]) :=
    fun hkey hv hv' => ⟨List.pairwise_pair.mpr hkey, hv, hv', trivial⟩
  have hdoc : ∀ odd : Json, odd.Sorted → (doc odd).Sorted := fun odd hodd =>
    hpair (by decide) trivial (hpair (by decide) (hpair (by decide) trivial trivial) hodd)
  have hwhole : whole.Sorted := hdoc _ (hpair (by decide) trivial trivial)
  have hbroken : broken.Sorted := hdoc _ ⟨List.pairwise_singleton _ _, trivial, trivial⟩
  have hdiffer : DifferAt "odd" whole broken := by
    refine differAt_of_nodes rfl rfl (fun other hother => ?_) rfl
    simp [Entries.get?, hother.symm]
  obtain ⟨hothers, hkey, hactive⟩ := frame_of_differAt hwhole hbroken hdiffer
  refine ⟨hothers "java" (by decide), ?_, ?_, hactive (by decide)⟩
  · refine ((hkey whole (Or.inl rfl)).1 _).mpr ⟨_, rfl, rfl, ⟨"http://o", rfl, ?_⟩, by decide, ?_⟩
    · exact keptUrl_iff.mpr (by decide +kernel)
    · intro t
      simp [Json.get?, Entries.get?]
  · rw [← Bool.not_eq_true, (hkey broken (Or.inr rfl)).2]
    rintro ⟨entry, hentry, members, given, rfl, hurl, -⟩
    have hmembers := Option.some.inj hentry
    cases hmembers
    exact absurd hurl (by simp [Entries.get?])

end ToolNodes.State
