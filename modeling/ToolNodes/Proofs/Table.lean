import ToolNodes.Table

/-!
# Tables by their entries

`get?` sees a table through one key; these lemmas tie it to the list of entries, which is what prints,
decodes and lists.
-/

namespace ToolNodes

variable {α β : Type}

namespace Entries

theorem insert_of_forall_lt {key : String} {value : α} {entries : List (String × α)}
    (h : ∀ entry ∈ entries, entry.1 < key) :
    insert key value entries = entries ++ [(key, value)] := by
  induction entries with
  | nil => rfl
  | cons head rest ih =>
      obtain ⟨k, v⟩ := head
      have hk : k < key := h (k, v) List.mem_cons_self
      have hnot : ¬ key < k := fun hlt => String.lt_irrefl _ (String.lt_trans hk hlt)
      rw [insert, if_neg hnot, if_pos hk, ih fun e he => h e (List.mem_cons_of_mem _ he)]
      rfl

theorem foldl_insert_append {entries t : List (String × α)} (h : Ordered (t ++ entries)) :
    entries.foldl (fun t e => insert e.1 e.2 t) t = t ++ entries := by
  induction entries generalizing t with
  | nil => rw [List.foldl_nil, List.append_nil]
  | cons e rest ih =>
      have hlt : ∀ entry ∈ t, entry.1 < e.1 := by
        intro entry hentry
        exact (List.pairwise_append.mp h).2.2 entry hentry e List.mem_cons_self
      rw [List.foldl_cons, insert_of_forall_lt hlt, ih]
      · rw [List.append_assoc]
        rfl
      · rw [List.append_assoc]
        exact h

/-- Entries in order make the table that lists them. -/
theorem ofList_of_ordered {entries : List (String × α)} (h : Ordered entries) :
    ofList entries = entries :=
  foldl_insert_append (t := []) h

theorem mem_of_mem_foldl_insert {pairs table : List (String × α)} {entry : String × α}
    (h : entry ∈ pairs.foldl (fun t e => insert e.1 e.2 t) table) :
    entry ∈ pairs ∨ entry ∈ table := by
  induction pairs generalizing table with
  | nil => exact Or.inr h
  | cons pair pairs ih =>
      rw [List.foldl_cons] at h
      rcases ih h with h | h
      · exact Or.inl (List.mem_cons_of_mem _ h)
      · rcases mem_insert h with rfl | h
        · exact Or.inl List.mem_cons_self
        · exact Or.inr h

theorem mem_of_mem_ofList {pairs : List (String × α)} {entry : String × α}
    (h : entry ∈ ofList pairs) : entry ∈ pairs := by
  rcases mem_of_mem_foldl_insert h with h | h
  · exact h
  · exact absurd h List.not_mem_nil

theorem ordered_map {entries : List (String × α)} (f : α → β) (h : Ordered entries) :
    Ordered (entries.map fun entry => (entry.1, f entry.2)) := by
  unfold Ordered at h ⊢
  rw [List.pairwise_map]
  exact h

theorem get?_map (f : α → β) (key : String) (entries : List (String × α)) :
    get? key (entries.map fun entry => (entry.1, f entry.2)) = (get? key entries).map f := by
  induction entries with
  | nil => rfl
  | cons entry rest ih =>
      rw [List.map_cons, get?, get?, ih]
      split
      · rfl
      · rfl

/-- The entries that are kept stay under their keys, in the same order. -/
theorem ordered_filterMap {entries : List (String × α)} (f : String → α → Option β)
    (h : Ordered entries) :
    Ordered (entries.filterMap fun e => (f e.1 e.2).map fun value => (e.1, value)) := by
  unfold Ordered at h ⊢
  apply List.Pairwise.filterMap _ _ h
  intro a b hab c hc d hd
  obtain ⟨x, -, rfl⟩ := Option.map_eq_some_iff.mp hc
  obtain ⟨y, -, rfl⟩ := Option.map_eq_some_iff.mp hd
  exact hab

/-- Whether an entry is kept, and as what, is told by the entry alone. -/
theorem get?_filterMap {entries : List (String × α)} (f : String → α → Option β)
    (h : Ordered entries) (key : String) :
    get? key (entries.filterMap fun e => (f e.1 e.2).map fun value => (e.1, value)) =
      (get? key entries).bind (f key) := by
  ext value
  rw [Option.bind_eq_some_iff]
  constructor
  · intro hget
    obtain ⟨e, he, hvalue⟩ := List.mem_filterMap.mp (mem_of_get?_eq_some hget)
    obtain ⟨kept, hkept, heq⟩ := Option.map_eq_some_iff.mp hvalue
    cases heq
    exact ⟨e.2, get?_eq_some_of_mem h he, hkept⟩
  · rintro ⟨entry, hget, hkept⟩
    apply get?_eq_some_of_mem (ordered_filterMap f h)
    refine List.mem_filterMap.mpr ⟨(key, entry), mem_of_get?_eq_some hget, ?_⟩
    rw [hkept]
    rfl

theorem map_insert (f : α → β) (key : String) (value : α) (entries : List (String × α)) :
    (insert key value entries).map (fun entry => (entry.1, f entry.2)) =
      insert key (f value) (entries.map fun entry => (entry.1, f entry.2)) := by
  induction entries with
  | nil => rfl
  | cons entry rest ih =>
      rw [List.map_cons, insert, insert]
      split
      · rfl
      · split
        · rw [List.map_cons, ih]
        · rfl

end Entries

namespace Table

theorem get?_eq_some_iff {t : Table α} {key : String} {value : α} :
    t.get? key = some value ↔ (key, value) ∈ t.entries :=
  ⟨Entries.mem_of_get?_eq_some, Entries.get?_eq_some_of_mem t.ordered⟩

theorem contains_iff {t : Table α} {key : String} :
    t.contains key = true ↔ ∃ value, t.get? key = some value := by
  unfold contains
  exact Option.isSome_iff_exists

theorem contains_of_mem {t : Table α} {entry : String × α} (h : entry ∈ t.entries) :
    t.contains entry.1 = true :=
  contains_iff.mpr ⟨entry.2, get?_eq_some_iff.mpr h⟩

theorem ofList_entries (t : Table α) : ofList t.entries = t :=
  ext (Entries.ofList_of_ordered t.ordered)

theorem get?_ofList_mem {pairs : List (String × α)} {key : String} {value : α}
    (h : (ofList pairs).get? key = some value) : (key, value) ∈ pairs :=
  Entries.mem_of_mem_ofList (get?_eq_some_iff.mp h)

theorem contains_of_isEmpty {t : Table α} (h : t.isEmpty = true) (key : String) :
    t.contains key = false := by
  unfold isEmpty at h
  unfold contains get?
  rw [List.isEmpty_iff.mp h]
  rfl

theorem mem_keys_iff {t : Table α} {key : String} : key ∈ t.keys ↔ t.contains key = true := by
  rw [contains_iff]
  unfold keys
  rw [List.mem_map]
  constructor
  · rintro ⟨entry, hentry, rfl⟩
    exact ⟨entry.2, get?_eq_some_iff.mpr hentry⟩
  · rintro ⟨value, hvalue⟩
    exact ⟨(key, value), get?_eq_some_iff.mp hvalue, rfl⟩

theorem nodup_keys (t : Table α) : t.keys.Nodup := by
  apply List.Pairwise.map _ _ t.ordered
  intro a b hlt heq
  rw [heq] at hlt
  exact String.lt_irrefl _ hlt

/-- A table is told by what it has under each key. -/
theorem ext_of_get? {s t : Table α} (h : ∀ key, s.get? key = t.get? key) : s = t := by
  have hnodup : ∀ u : Table α, u.entries.Nodup := by
    intro u
    apply u.ordered.imp
    rintro a b hlt rfl
    exact String.lt_irrefl _ hlt
  apply ext
  apply List.Perm.eq_of_pairwise _ s.ordered t.ordered
  · rw [List.perm_ext_iff_of_nodup (hnodup s) (hnodup t)]
    intro entry
    rw [← get?_eq_some_iff, ← get?_eq_some_iff, h]
  · intro a b _ _ hab hba
    exact absurd hba (String.lt_asymm hab)

theorem isEmpty_eq_false_iff {t : Table α} : t.isEmpty = false ↔ ∃ key, t.contains key = true := by
  unfold isEmpty
  constructor
  · intro h
    cases he : t.entries with
    | nil =>
        rw [he] at h
        exact absurd h (by simp)
    | cons entry rest =>
        refine ⟨entry.1, contains_of_mem ?_⟩
        rw [he]
        exact List.mem_cons_self
  · rintro ⟨key, hkey⟩
    cases he : t.entries.isEmpty with
    | false => rfl
    | true =>
        rw [contains_of_isEmpty he] at hkey
        exact absurd hkey (by simp)

@[simp] theorem contains_insert (t : Table α) (key : String) (value : α) (key' : String) :
    (t.insert key value).contains key' = (decide (key = key') || t.contains key') := by
  unfold contains
  rw [get?_insert]
  split <;> simp [*]

@[simp] theorem contains_erase (t : Table α) (key key' : String) :
    (t.erase key).contains key' = (!decide (key = key') && t.contains key') := by
  unfold contains
  rw [get?_erase]
  split <;> simp [*]

/-! ## Changing the values -/

def map (f : α → β) (t : Table α) : Table β :=
  ⟨t.entries.map fun entry => (entry.1, f entry.2), Entries.ordered_map f t.ordered⟩

@[simp] theorem get?_map (f : α → β) (t : Table α) (key : String) :
    (t.map f).get? key = (t.get? key).map f :=
  Entries.get?_map f key t.entries

@[simp] theorem contains_map (f : α → β) (t : Table α) (key : String) :
    (t.map f).contains key = t.contains key := by
  unfold contains
  rw [get?_map, Option.isSome_map]

theorem map_insert (f : α → β) (t : Table α) (key : String) (value : α) :
    (t.insert key value).map f = (t.map f).insert key (f value) :=
  ext (Entries.map_insert f key value t.entries)

theorem map_erase (f : α → β) (t : Table α) (key : String) :
    (t.erase key).map f = (t.map f).erase key := by
  apply ext
  show (t.entries.filter _).map _ = (t.entries.map _).filter _
  rw [List.filter_map]
  rfl

@[simp] theorem keys_map (f : α → β) (t : Table α) : (t.map f).keys = t.keys := by
  unfold keys map
  rw [List.map_map]
  rfl

@[simp] theorem values_map (f : α → β) (t : Table α) : (t.map f).values = t.values.map f := by
  unfold values map
  rw [List.map_map, List.map_map]
  rfl

end Table

end ToolNodes
