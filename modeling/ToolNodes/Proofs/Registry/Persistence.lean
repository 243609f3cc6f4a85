import ToolNodes.Proofs.Registry.Invariant
import ToolNodes.Proofs.Registry.Transaction

/-!
# What a second registry finds

After a call that is made, a file that may be read holds the document of the state, and a registry that
is opened on it has the canonical form of that state. The two are the same unless a URL ends with a blank.
Such a URL comes of one in which blanks and slashes alternate at the end: the slashes are dropped when the
node is registered, the blank before them only when it is loaded.
-/

namespace ToolNodes.Registry

variable {r : Registry}

/-- The registry that is opened on the store of another. -/
def reopened (r : Registry) : Registry := (openStore r.store).1

/-! ## The state that is found -/

theorem state_reopened {f : FileStore} (hstore : r.store = .file f) (h : f.Holds r.state)
    (hlegible : f.Legible) : r.reopened.state = r.state.canonical := by
  show r.store.loadOrEmpty.1 = _
  rw [hstore, Store.loadOrEmpty_of_holds h hlegible]

theorem get?_reopened {f : FileStore} (hstore : r.store = .file f) (h : f.Holds r.state)
    (hlegible : f.Legible) (name : String) :
    r.reopened.get? name = (r.get? name).bind fun node => State.usable? name node.url node.token := by
  unfold get?
  rw [state_reopened hstore h hlegible]
  exact State.get?_canonical r.state name

theorem mem_list_iff {node : Node} : node ∈ r.list ↔ ∃ name, r.get? name = some node := by
  unfold list get? Table.values
  rw [List.mem_mergeSort, List.mem_map]
  constructor
  · rintro ⟨entry, hentry, rfl⟩
    exact ⟨entry.1, Table.get?_eq_some_iff.mpr hentry⟩
  · rintro ⟨name, hname⟩
    exact ⟨(name, node), Table.get?_eq_some_iff.mp hname, rfl⟩

/-! ## The nodes that are found -/

/-- A node is found as it was exactly if its URL does not end with a blank. -/
theorem found_iff {f : FileStore} (hstore : r.store = .file f) (h : f.Holds r.state)
    (hlegible : f.Legible) (hsound : r.state.Sound) {name : String} {node : Node}
    (hnode : r.get? name = some node) :
    r.reopened.get? name = some node ↔ Text.endsBlank node.url = false := by
  rw [get?_reopened hstore h hlegible, hnode, Option.bind_some]
  exact State.usable?_eq_self_iff (hsound.nodes name node hnode)

/-- A second registry has the same active name and lists the same nodes exactly if no URL ends with a
blank. -/
theorem same_iff {f : FileStore} (hstore : r.store = .file f) (h : f.Holds r.state)
    (hlegible : f.Legible) (hsound : r.state.Sound) :
    (r.reopened.activeName = r.activeName ∧ r.reopened.list = r.list) ↔
      ∀ node ∈ r.list, Text.endsBlank node.url = false := by
  constructor
  · rintro ⟨-, hlist⟩ node hnode
    obtain ⟨name, hname⟩ := mem_list_iff.mp hnode
    rw [← hlist] at hnode
    obtain ⟨found, hfound⟩ := mem_list_iff.mp hnode
    have hkey : found = name := by
      rw [get?_reopened hstore h hlegible] at hfound
      obtain ⟨other, -, husable⟩ := Option.bind_eq_some_iff.mp hfound
      obtain ⟨-, heq⟩ := State.usable?_eq_some husable
      rw [← (hsound.nodes name node hname).name_eq, heq]
      rfl
    rw [hkey] at hfound
    exact (found_iff hstore h hlegible hsound hname).mp hfound
  · intro hends
    have hstate : r.reopened.state = r.state := by
      rw [state_reopened hstore h hlegible]
      apply State.canonical_eq_self hsound
      intro name node hnode
      exact hends node (mem_list_iff.mpr ⟨name, hnode⟩)
    unfold activeName list
    rw [hstate]
    exact ⟨rfl, rfl⟩

/-! ## Runs -/

/-- **What of a run is found again**: over any disk and after any events, when a call has been made and
the path leads to a file that may be read, a second registry on the same path finds a node as it is
exactly if its URL does not end with a blank, and finds the same active name and the same nodes exactly
if no URL does. -/
theorem reopened_of_run (path : String) (disk : Disk) (events : List Event) (e : Edit)
    (h : (((openStore (.file ⟨path, disk⟩)).1.after events).edit e).result = .ok ())
    (hlegible : (((openStore (.file ⟨path, disk⟩)).1.after events).edit e).registry.store.Legible) :
    let r := (((openStore (.file ⟨path, disk⟩)).1.after events).edit e).registry
    (∃ disk', r.store = .file ⟨path, disk'⟩) ∧
    (∀ name node, r.get? name = some node →
      (r.reopened.get? name = some node ↔ Text.endsBlank node.url = false)) ∧
    ((r.reopened.activeName = r.activeName ∧ r.reopened.list = r.list) ↔
      ∀ node ∈ r.list, Text.endsBlank node.url = false) := by
  intro r
  have hbefore : ((openStore (.file ⟨path, disk⟩)).1.after events).state.Sound :=
    sound_after events (Store.sound_loadOrEmpty ⟨path, disk⟩)
  have hsound : r.state.Sound := sound_after [.edit e] hbefore
  obtain ⟨disk', hstore⟩ : ∃ disk', r.store = .file ⟨path, disk'⟩ := by
    obtain ⟨disk₁, hdisk₁⟩ := store_after events (r := (openStore (.file ⟨path, disk⟩)).1) rfl
    exact store_step hdisk₁ (.edit e)
  have hfile : FileStore.Legible ⟨path, disk'⟩ := by
    change r.store.Legible at hlegible
    rw [hstore] at hlegible
    exact hlegible
  have hholds : FileStore.Holds ⟨path, disk'⟩ r.state := by
    rcases (took_or_device_of_ok h).2 with htook | ⟨hdevice, -⟩
    · have hholds : r.store.Holds r.state := htook.holds
      rw [hstore] at hholds
      exact hholds
    · change r.store.OnDevice at hdevice
      rw [hstore] at hdevice
      exact absurd hdevice hfile.not_onDevice
  refine ⟨⟨disk', hstore⟩, ?_, same_iff hstore hholds hfile hsound⟩
  intro name node hnode
  exact found_iff hstore hholds hfile hsound hnode

/-- A node with an ordinary URL is found again. -/
theorem reopened_of_run_ordinary :
    let r := (((openStore (.file ⟨"nodes.json", {}⟩)).1.after []).edit
      (.add "a" "http://a/" none)).registry
    r.reopened.activeName = r.activeName ∧ r.reopened.list = r.list := by
  intro r
  have hmade : (((openStore (.file ⟨"nodes.json", {}⟩)).1.after []).edit
      (.add "a" "http://a/" none)).result = .ok () := made_of_toBool (by decide +kernel)
  have h := reopened_of_run "nodes.json" {} [] (.add "a" "http://a/" none) hmade (by decide +kernel)
  exact h.2.2.mpr (by decide +kernel)

/-- Not every node is found again: of a URL that ends with a slash, a blank and a slash, the blank stays
at the end when it is registered, and goes with the slash before it when it is loaded. -/
theorem not_always_found :
    ¬ ∀ (path : String) (disk : Disk) (events : List Event) (e : Edit),
      (((openStore (.file ⟨path, disk⟩)).1.after events).edit e).result = .ok () →
        (((openStore (.file ⟨path, disk⟩)).1.after events).edit e).registry.store.Legible →
        let r := (((openStore (.file ⟨path, disk⟩)).1.after events).edit e).registry
        r.reopened.activeName = r.activeName ∧ r.reopened.list = r.list := by
  intro hall
  have hmade : (((openStore (.file ⟨"nodes.json", {}⟩)).1.after []).edit
      (.add "a" "http://a/ /" none)).result = .ok () := made_of_toBool (by decide +kernel)
  have hlist := (hall "nodes.json" {} [] (.add "a" "http://a/ /" none) hmade (by decide +kernel)).2
  exact absurd hlist (by decide +kernel)

end ToolNodes.Registry
