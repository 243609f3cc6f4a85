import Mathlib.Data.Prod.Lex
import Mathlib.Data.String.Basic
import ToolNodes.Proofs.Registry.Persistence

/-!
# Listing order and the selection after a removal

A listing sorts the nodes by their names, and a removal of the active node takes the least of the keys
that are left: two computations over different data, by the same order. The order goes by a key that
names determine and that determines them (`listingKey`), so it is strict and total although names can
have the same lower case; and in a sound state keys are names. So the least key is the name of the node
that the listing starts with (`firstListed_eq_head?`).
-/

namespace ToolNodes.Registry

/-- What listings go by: the name in lower case, and then the name as it is. -/
def listingKey (name : String) : String ×ₗ String := toLex (Text.lower name, name)

variable {r : Registry} {a b name : String}

/-! ## The order -/

theorem eq_of_listingKey (h : listingKey a = listingKey b) : a = b :=
  congrArg (fun key => (ofLex key).2) h

theorem listsBefore_iff : listsBefore a b = true ↔ listingKey a < listingKey b := by
  unfold listsBefore listingKey
  rw [Prod.Lex.toLex_lt_toLex]
  simp only [Bool.or_eq_true, Bool.and_eq_true, decide_eq_true_eq]

theorem listsUpTo_iff : listsUpTo a b = true ↔ listingKey a ≤ listingKey b := by
  unfold listsUpTo
  rw [Bool.not_eq_true', ← Bool.not_eq_true, listsBefore_iff, not_lt]

/-! ## The listing -/

/-- In a sound state the names in a listing are the keys. -/
theorem names_perm_keys (h : r.state.Sound) : (r.list.map Node.name).Perm r.state.nodes.keys := by
  have hvalues : (r.list.map Node.name).Perm (r.state.nodes.values.map Node.name) := by
    apply List.Perm.map
    exact List.mergeSort_perm _ _
  have hkeys : r.state.nodes.values.map Node.name = r.state.nodes.keys := by
    unfold Table.values Table.keys
    rw [List.map_map]
    apply List.map_congr_left
    intro entry hentry
    exact (h.nodes entry.1 entry.2 (Table.get?_eq_some_iff.mpr hentry)).name_eq
  rw [hkeys] at hvalues
  exact hvalues

theorem list_pairwise_le (r : Registry) :
    r.list.Pairwise fun x y => listingKey x.name ≤ listingKey y.name := by
  have hsorted : r.list.Pairwise fun x y => listsUpTo x.name y.name = true := by
    apply List.pairwise_mergeSort
    · intro x y z hxy hyz
      rw [listsUpTo_iff] at hxy hyz ⊢
      exact le_trans hxy hyz
    · intro x y
      rw [Bool.or_eq_true, listsUpTo_iff, listsUpTo_iff]
      exact le_total _ _
  exact hsorted.imp listsUpTo_iff.mp

theorem list_pairwise_lt (h : r.state.Sound) :
    r.list.Pairwise fun x y => listingKey x.name < listingKey y.name := by
  have hnodup : (r.list.map Node.name).Nodup :=
    (names_perm_keys h).nodup_iff.mpr r.state.nodes.nodup_keys
  have hne : r.list.Pairwise fun x y => x.name ≠ y.name := List.pairwise_map.mp hnodup
  refine ((list_pairwise_le r).and hne).imp ?_
  rintro x y ⟨hle, hxy⟩
  exact lt_of_le_of_ne hle fun hkey => hxy (eq_of_listingKey hkey)

/-- In a sound state a listing has every registered node once, and nothing else. -/
theorem count_list (h : r.state.Sound) {node : Node} (hnode : r.get? name = some node) :
    r.list.count node = 1 := by
  have hnodup : r.list.Nodup := by
    refine (list_pairwise_lt h).imp ?_
    rintro x y hlt rfl
    exact lt_irrefl _ hlt
  rw [hnodup.count, if_pos (mem_list_iff.mpr ⟨name, hnode⟩)]

theorem get?_of_mem_list (h : r.state.Sound) {node : Node} (hnode : node ∈ r.list) :
    r.get? node.name = some node := by
  obtain ⟨key, hkey⟩ := mem_list_iff.mp hnode
  rw [(h.nodes key node hkey).name_eq]
  exact hkey

/-! ## The first that is left -/

theorem firstListed_le {names : List String} {first : String} (h : firstListed names = some first) :
    ∀ name ∈ names, listingKey first ≤ listingKey name := by
  induction names generalizing first with
  | nil => exact absurd h (by simp [firstListed])
  | cons head rest ih =>
      rw [firstListed] at h
      cases hrest : firstListed rest with
      | none =>
          rw [hrest] at h
          obtain rfl := Option.some.inj h
          have hnil : rest = [] := by
            have hsome := isSome_firstListed rest
            rw [hrest] at hsome
            simpa using hsome
          rw [hnil]
          intro name hname
          rw [List.mem_singleton.mp hname]
      | some least =>
          rw [hrest] at h
          have hleast := ih hrest
          intro name hname
          by_cases hhead : listsUpTo head least = true
          · obtain rfl : head = first := by simpa [hhead] using h
            have hle := listsUpTo_iff.mp hhead
            rcases List.mem_cons.mp hname with rfl | hname
            · exact le_refl _
            · exact le_trans hle (hleast name hname)
          · obtain rfl : least = first := by simpa [hhead] using h
            rw [listsUpTo_iff, not_le] at hhead
            rcases List.mem_cons.mp hname with rfl | hname
            · exact le_of_lt hhead
            · exact hleast name hname

/-- **In a sound state the least key is the name that the listing starts with.** -/
theorem firstListed_eq_head? (h : r.state.Sound) :
    firstListed r.state.nodes.keys = r.list.head?.map Node.name := by
  have hperm := names_perm_keys h
  cases hlist : r.list with
  | nil =>
      rw [hlist, List.map_nil] at hperm
      rw [← hperm.nil_eq]
      rfl
  | cons node rest =>
      have hnode : node.name ∈ r.state.nodes.keys := by
        apply hperm.mem_iff.mp
        rw [hlist]
        exact List.mem_cons_self
      cases hfirst : firstListed r.state.nodes.keys with
      | none =>
          have hsome := isSome_firstListed r.state.nodes.keys
          rw [hfirst] at hsome
          exact absurd (List.ne_nil_of_mem hnode) (by simpa using hsome)
      | some first =>
          have hle : listingKey first ≤ listingKey node.name := firstListed_le hfirst _ hnode
          have hge : listingKey node.name ≤ listingKey first := by
            have hmem : first ∈ r.list.map Node.name := hperm.mem_iff.mpr (mem_of_firstListed hfirst)
            obtain ⟨other, hother, rfl⟩ := List.mem_map.mp hmem
            have hsorted := list_pairwise_le r
            rw [hlist] at hother hsorted
            rcases List.mem_cons.mp hother with rfl | hother
            · exact le_refl _
            · exact List.rel_of_pairwise_cons hsorted hother
          exact congrArg some (eq_of_listingKey (le_antisymm hle hge))

/-! ## Removals -/

/-- The selection after a removal that is made: from the removed node it passes to the node that the
listing starts with, and otherwise it stays. -/
theorem activeName_remove (h : r.state.Sound) (hmade : (r.remove name).result = .ok ()) :
    (r.remove name).registry.activeName =
      if r.activeName = some name then (r.remove name).registry.list.head?.map Node.name
      else r.activeName := by
  have hstate : (r.remove name).registry.state = afterRemove r.state name :=
    (took_or_device_of_ok (e := .remove name) hmade).1
  have hsound : (r.remove name).registry.state.Sound := by
    rw [hstate]
    exact sound_afterRemove h name
  rw [← firstListed_eq_head? hsound]
  unfold activeName
  rw [hstate]
  rfl

/-- **Listings and removals go by one order**: over any disk and after any events, a listing has every
registered node once, in strictly increasing order of their keys; and after a removal of the active node
that is made, the active name is the name of the first node in the listing, and none exactly if nothing
is listed, while the removal of another node leaves it as it was. -/
theorem listed_after (path : String) (disk : Disk) (events : List Event) :
    let r := (openStore (.file ⟨path, disk⟩)).1.after events
    (∀ name node, r.get? name = some node → r.list.count node = 1) ∧
    (∀ node ∈ r.list, r.get? node.name = some node) ∧
    r.list.Pairwise (fun x y => listingKey x.name < listingKey y.name) ∧
    ∀ name, (r.remove name).result = .ok () →
      let left := (r.remove name).registry
      (r.activeName = some name →
        left.activeName = left.list.head?.map Node.name ∧
        (left.activeName = none ↔ left.list = [])) ∧
      (r.activeName ≠ some name → left.activeName = r.activeName) := by
  intro r
  have hsound : r.state.Sound := sound_after events (Store.sound_loadOrEmpty ⟨path, disk⟩)
  refine ⟨fun name node hnode => count_list hsound hnode, fun node => get?_of_mem_list hsound,
    list_pairwise_lt hsound, ?_⟩
  intro name hmade left
  have hactive := activeName_remove hsound hmade
  constructor
  · intro hname
    rw [if_pos hname] at hactive
    refine ⟨hactive, ?_⟩
    rw [hactive, Option.map_eq_none_iff, List.head?_eq_none_iff]
  · intro hname
    rw [if_neg hname] at hactive
    exact hactive

end ToolNodes.Registry
