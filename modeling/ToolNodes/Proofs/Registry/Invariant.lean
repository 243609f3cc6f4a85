import ToolNodes.Proofs.Registry.Run

/-!
# What holds of every registry

Whatever the file says when a registry is opened, the state that comes of it is sound, and every call
keeps it so. The selection follows the nodes: once a node is active, one is for as long as there are
any, since a removal passes the selection on to the first node that is left (`Selecting`).
-/

namespace ToolNodes

namespace State

/-- A node is active exactly if there is one. -/
def Selecting (s : State) : Prop := s.active.isSome = true ↔ s.nodes.isEmpty = false

theorem Sound.nodes_of_active {s : State} (h : s.Sound) (hactive : s.active.isSome = true) :
    s.nodes.isEmpty = false := by
  obtain ⟨name, hname⟩ := Option.isSome_iff_exists.mp hactive
  exact Table.isEmpty_eq_false_iff.mpr ⟨name, h.active name hname⟩

end State

namespace Registry

variable {s : State}

/-! ## The first of the names -/

theorem mem_of_firstListed : ∀ {names : List String} {name : String},
    firstListed names = some name → name ∈ names
  | first :: rest, name, h => by
      rw [firstListed] at h
      cases hrest : firstListed rest with
      | none =>
          rw [hrest] at h
          cases h
          exact List.mem_cons_self
      | some other =>
          rw [hrest] at h
          simp only [Option.some.injEq] at h
          split at h
          · rw [← h]
            exact List.mem_cons_self
          · rw [← h]
            exact List.mem_cons_of_mem _ (mem_of_firstListed hrest)

theorem isSome_firstListed (names : List String) :
    (firstListed names).isSome = !names.isEmpty := by
  cases names with
  | nil => rfl
  | cons first rest =>
      rw [firstListed]
      cases firstListed rest <;> rfl

/-! ## Calls keep a state sound -/

theorem sound_afterAdd (h : s.Sound) {name url : String} (token : Option String)
    (hurl : (normalUrl url).isEmpty = false) : (afterAdd s name url token).Sound where
  nodes := by
    intro key node hget
    simp only [afterAdd, Table.get?_insert] at hget
    split at hget
    · rename_i hkey
      subst hkey
      cases hget
      exact Node.sound_normal hurl
    · exact h.nodes key node hget
  active := by
    intro active hactive
    simp only [afterAdd] at hactive ⊢
    rw [Table.contains_insert, Bool.or_eq_true, decide_eq_true_eq]
    cases ha : s.active with
    | none =>
        rw [ha] at hactive
        exact Or.inl (Option.some.inj hactive)
    | some current =>
        rw [ha] at hactive
        rw [← Option.some.inj hactive]
        exact Or.inr (h.active current ha)

theorem sound_afterRemove (h : s.Sound) (name : String) : (afterRemove s name).Sound where
  nodes := by
    intro key node hget
    simp only [afterRemove, Table.get?_erase] at hget
    split at hget
    · exact absurd hget (by simp)
    · exact h.nodes key node hget
  active := by
    intro active hactive
    simp only [afterRemove] at hactive ⊢
    split at hactive
    · exact Table.mem_keys_iff.mp (mem_of_firstListed hactive)
    · rename_i hother
      have hne : name ≠ active := by
        rintro rfl
        exact hother hactive
      rw [Table.contains_erase, h.active active hactive]
      simp [hne]

theorem sound_use (h : s.Sound) {name : String} (hname : s.nodes.contains name = true) :
    ({ s with active := some name } : State).Sound where
  nodes := h.nodes
  active := by
    intro active hactive
    cases hactive
    exact hname

theorem sound_next (h : s.Sound) {e : Edit} (he : e.Acceptable s) : (e.next s).Sound := by
  cases e with
  | add name url token => exact sound_afterAdd h token he.2
  | remove name => exact sound_afterRemove h name
  | use name => exact sound_use h he

/-! ## Calls keep a node active -/

theorem selecting_afterRemove (h : s.Sound) (hsel : s.Selecting) (name : String) :
    (afterRemove s name).Selecting := by
  unfold State.Selecting at hsel ⊢
  simp only [afterRemove]
  split
  · rw [isSome_firstListed]
    simp [Table.keys, Table.isEmpty]
  · rename_i hother
    constructor
    · intro hactive
      exact (sound_afterRemove h name).nodes_of_active (by simpa [afterRemove, hother] using hactive)
    · intro hleft
      obtain ⟨key, hkey⟩ := Table.isEmpty_eq_false_iff.mp hleft
      rw [Table.contains_erase, Bool.and_eq_true] at hkey
      exact hsel.mpr (Table.isEmpty_eq_false_iff.mpr ⟨key, hkey.2⟩)

theorem selecting_next (h : s.Sound) (hsel : s.Selecting) {e : Edit} (he : e.Acceptable s) :
    (e.next s).Selecting := by
  cases e with
  | add name url token =>
      have hactive : (afterAdd s name url token).active.isSome = true := by
        simp [afterAdd]
      exact ⟨(sound_next h he).nodes_of_active, fun _ => hactive⟩
  | remove name => exact selecting_afterRemove h hsel name
  | use name => exact ⟨(sound_next h he).nodes_of_active, fun _ => rfl⟩

/-! ## Every registry -/

theorem sound_after {r : Registry} (events : List Event) (h : r.state.Sound) :
    (r.after events).state.Sound :=
  state_after events h fun _ _ hs he => sound_next hs he

theorem selecting_after {r : Registry} (events : List Event) (h : r.state.Sound)
    (hsel : r.state.Selecting) : (r.after events).state.Selecting := by
  have hboth : (r.after events).state.Sound ∧ (r.after events).state.Selecting := by
    apply state_after (P := fun s => s.Sound ∧ s.Selecting) events ⟨h, hsel⟩
    intro s e hs he
    exact ⟨sound_next hs.1 he, selecting_next hs.1 hs.2 he⟩
  exact hboth.2

/-- **Every registry over a file is sound**, whatever the file says at the start and whatever happens
afterwards: every node has the name that it is registered under, a URL that is not empty, does not
start with a blank and does not end with a slash, and no blank token, and the active name is
registered. From when a node is active, one is active as long as there are any; and if the file did not
exist, that is so from the start. -/
theorem sound_of_run (path : String) (disk : Disk) (events : List Event) :
    let opened := (openStore (.file ⟨path, disk⟩)).1
    let r := opened.after events
    (∀ name node, r.get? name = some node → node.Sound name) ∧
    (∀ name, r.activeName = some name → r.contains name = true) ∧
    (r.activeName.isSome = true →
      ∀ more, (r.after more).isEmpty = false → (r.after more).activeName.isSome = true) ∧
    ((FileStore.mk path disk).present = false →
      (r.activeName.isSome = true ↔ r.isEmpty = false)) := by
  intro opened r
  have hopened : opened.state.Sound := Store.sound_loadOrEmpty ⟨path, disk⟩
  have hr : r.state.Sound := sound_after events hopened
  refine ⟨hr.nodes, hr.active, ?_, ?_⟩
  · intro hactive more hleft
    have hsel : r.state.Selecting := ⟨fun _ => hr.nodes_of_active hactive, fun _ => hactive⟩
    exact (selecting_after more hr hsel).mpr hleft
  · intro habsent
    have hempty : opened.state = State.empty := by
      have hload : (Store.file ⟨path, disk⟩).load = .ok .empty := FileStore.load_of_absent habsent
      show (Store.file ⟨path, disk⟩).loadOrEmpty.1 = State.empty
      rw [Store.loadOrEmpty_of_load hload]
    have hsel : opened.state.Selecting := by
      rw [hempty]
      exact ⟨fun h => absurd h (by decide), fun h => absurd h (by decide)⟩
    exact selecting_after events hopened hsel

end Registry

end ToolNodes
