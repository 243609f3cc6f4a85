/-!
# Tables ordered by key

The members of a JSON object and the nodes of a registry are tables from strings to values. A table
is a list of entries whose keys ascend strictly, in the order of code points; so a key has one
entry at most, and a listing has one order. `get?` is the view: each operation is pinned down by
what it does to `get?` (`get?_insert`, `get?_erase`).
-/

namespace ToolNodes

variable {α : Type}

/-! ## Entries -/

namespace Entries

def Ordered (entries : List (String × α)) : Prop :=
  entries.Pairwise fun a b => a.1 < b.1

def get? (key : String) : List (String × α) → Option α
  | [] => none
  | (k, v) :: rest => if k = key then some v else get? key rest

/-- Puts an entry in its place in the order, replacing the one with the same key. -/
def insert (key : String) (value : α) : List (String × α) → List (String × α)
  | [] => [(key, value)]
  | (k, v) :: rest =>
    if key < k then (key, value) :: (k, v) :: rest
    else if k < key then (k, v) :: insert key value rest
    else (key, value) :: rest

def erase (key : String) (entries : List (String × α)) : List (String × α) :=
  entries.filter fun entry => entry.1 ≠ key

/-- Orders a list of entries; the last of several with one key stays. -/
def ofList (entries : List (String × α)) : List (String × α) :=
  entries.foldl (fun table entry => insert entry.1 entry.2 table) []

theorem mem_insert {key : String} {value : α} {entries : List (String × α)}
    {entry : String × α} (h : entry ∈ insert key value entries) :
    entry = (key, value) ∨ entry ∈ entries := by
  induction entries with
  | nil => simpa [insert] using h
  | cons head rest ih =>
    obtain ⟨k, v⟩ := head
    simp only [insert] at h
    split at h
    · simpa using h
    · split at h
      · rcases List.mem_cons.1 h with h | h
        · exact .inr (h ▸ List.mem_cons_self)
        · exact (ih h).imp_right (List.mem_cons_of_mem _)
      · exact (List.mem_cons.1 h).imp_right (List.mem_cons_of_mem _)

theorem eq_of_not_lt {a b : String} (hab : ¬ a < b) (hba : ¬ b < a) : a = b :=
  String.le_antisymm (String.not_lt.1 hba) (String.not_lt.1 hab)

theorem ordered_insert {key : String} {value : α} {entries : List (String × α)}
    (h : Ordered entries) : Ordered (insert key value entries) := by
  induction entries with
  | nil => simp [insert, Ordered]
  | cons head rest ih =>
    obtain ⟨k, v⟩ := head
    have hrest := List.pairwise_cons.1 h
    simp only [insert]
    split
    · rename_i hlt
      refine List.pairwise_cons.2 ⟨fun entry hentry => ?_, h⟩
      rcases List.mem_cons.1 hentry with rfl | hentry
      · exact hlt
      · exact String.lt_trans hlt (hrest.1 entry hentry)
    · split
      · rename_i hlt
        refine List.pairwise_cons.2 ⟨fun entry hentry => ?_, ih hrest.2⟩
        rcases mem_insert hentry with rfl | hentry
        · exact hlt
        · exact hrest.1 entry hentry
      · rename_i h₁ h₂
        obtain rfl := eq_of_not_lt h₁ h₂
        exact List.pairwise_cons.2 ⟨hrest.1, hrest.2⟩

theorem ordered_erase {key : String} {entries : List (String × α)} (h : Ordered entries) :
    Ordered (erase key entries) :=
  List.Pairwise.filter _ h

theorem ordered_foldl_insert (pairs : List (String × α)) {entries : List (String × α)}
    (h : Ordered entries) :
    Ordered (pairs.foldl (fun table entry => insert entry.1 entry.2 table) entries) := by
  induction pairs generalizing entries with
  | nil => exact h
  | cons pair pairs ih => exact ih (ordered_insert h)

theorem ordered_ofList (pairs : List (String × α)) : Ordered (ofList pairs) :=
  ordered_foldl_insert pairs List.Pairwise.nil

/-- Insertion changes the value under its own key only. -/
theorem get?_insert (key : String) (value : α) (entries : List (String × α)) (key' : String) :
    get? key' (insert key value entries) =
      if key = key' then some value else get? key' entries := by
  induction entries with
  | nil => simp [insert, get?]
  | cons head rest ih =>
    obtain ⟨k, v⟩ := head
    simp only [insert]
    split
    · simp [get?]
    · split
      · rename_i hlt
        simp only [get?, ih]
        by_cases hk : k = key'
        · subst hk
          have : key ≠ k := by rintro rfl; exact String.lt_irrefl _ hlt
          simp [this]
        · simp [hk]
      · rename_i h₁ h₂
        obtain rfl := eq_of_not_lt h₁ h₂
        by_cases hk : key = key' <;> simp [get?, hk]

/-- Erasure removes the value under its own key only. -/
theorem get?_erase (key : String) (entries : List (String × α)) (key' : String) :
    get? key' (erase key entries) = if key = key' then none else get? key' entries := by
  induction entries with
  | nil => simp [erase, get?]
  | cons head rest ih =>
    obtain ⟨k, v⟩ := head
    simp only [erase, List.filter_cons] at ih ⊢
    by_cases hk : k = key
    · subst hk
      simp only [ne_eq, not_true_eq_false, decide_false, Bool.false_eq_true, if_false, ih, get?]
      by_cases h : k = key' <;> simp [h]
    · simp only [ne_eq, hk, not_false_eq_true, decide_true, if_true, get?, ih]
      by_cases h : k = key'
      · subst h
        have : key ≠ k := fun e => hk e.symm
        simp [this]
      · simp [h]

theorem mem_of_get?_eq_some {key : String} {value : α} {entries : List (String × α)}
    (h : get? key entries = some value) : (key, value) ∈ entries := by
  induction entries with
  | nil => simp [get?] at h
  | cons head rest ih =>
    obtain ⟨k, v⟩ := head
    simp only [get?] at h
    split at h
    · simp_all
    · exact List.mem_cons_of_mem _ (ih h)

theorem get?_eq_some_of_mem {key : String} {value : α} {entries : List (String × α)}
    (hord : Ordered entries) (h : (key, value) ∈ entries) : get? key entries = some value := by
  induction entries with
  | nil => simp at h
  | cons head rest ih =>
    obtain ⟨k, v⟩ := head
    have hrest := List.pairwise_cons.1 hord
    rcases List.mem_cons.1 h with h | h
    · cases h
      simp [get?]
    · have : k ≠ key := by
        rintro rfl
        exact String.lt_irrefl _ (hrest.1 (_, value) h)
      simp [get?, this, ih hrest.2 h]

end Entries

/-! ## Tables -/

/-- A table from strings to values, listed by key. -/
structure Table (α : Type) where
  entries : List (String × α) := []
  ordered : Entries.Ordered entries := by exact List.Pairwise.nil

namespace Table

theorem ext {s t : Table α} (h : s.entries = t.entries) : s = t := by
  cases s; cases t; cases h; rfl

instance [DecidableEq α] : DecidableEq (Table α) := fun s t =>
  if h : s.entries = t.entries then isTrue (ext h)
  else isFalse fun e => h (congrArg entries e)

instance : Inhabited (Table α) := ⟨{}⟩

/-- The table without entries. -/
def empty : Table α := {}

def get? (t : Table α) (key : String) : Option α := Entries.get? key t.entries

def contains (t : Table α) (key : String) : Bool := (t.get? key).isSome

def insert (t : Table α) (key : String) (value : α) : Table α :=
  ⟨Entries.insert key value t.entries, Entries.ordered_insert t.ordered⟩

def erase (t : Table α) (key : String) : Table α :=
  ⟨Entries.erase key t.entries, Entries.ordered_erase t.ordered⟩

/-- The table of a list of entries; the last of several with one key stays. -/
def ofList (pairs : List (String × α)) : Table α :=
  ⟨Entries.ofList pairs, Entries.ordered_ofList pairs⟩

/-- The values, by key. -/
def values (t : Table α) : List α := t.entries.map (·.2)

/-- The keys, in order. -/
def keys (t : Table α) : List String := t.entries.map (·.1)

def size (t : Table α) : Nat := t.entries.length

def isEmpty (t : Table α) : Bool := t.entries.isEmpty

@[simp] theorem get?_insert (t : Table α) (key : String) (value : α) (key' : String) :
    (t.insert key value).get? key' = if key = key' then some value else t.get? key' :=
  Entries.get?_insert key value t.entries key'

@[simp] theorem get?_erase (t : Table α) (key key' : String) :
    (t.erase key).get? key' = if key = key' then none else t.get? key' :=
  Entries.get?_erase key t.entries key'

end Table

end ToolNodes
