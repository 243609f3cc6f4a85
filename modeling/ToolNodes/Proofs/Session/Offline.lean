import ToolNodes.Proofs.Registry.Transaction
import ToolNodes.Proofs.Session.Run

/-!
# Offline mode and its node

Offline mode is a name that the session holds, and the node under it is the registry's. The two stay
together: the mode is entered only on a name that is registered, a call on the registry keeps every node
but the one that it removes (`contains_edit`), and a line that removes the node of the mode ends the
mode, unless the removal fails and leaves both (`anchored_turn`).
-/

namespace ToolNodes

namespace Registry

variable {r : Registry} {e : Edit} {name : String}

/-! ## Names that stay registered -/

theorem contains_next {s : State} (h : s.nodes.contains name = true) (hne : e ≠ .remove name) :
    (e.next s).nodes.contains name = true := by
  cases e with
  | add added url token =>
      show (s.nodes.insert added (.normal added url token)).contains name = true
      rw [Table.contains_insert, h, Bool.or_true]
  | remove removed =>
      show (s.nodes.erase removed).contains name = true
      have hother : removed ≠ name := by
        rintro rfl
        exact hne rfl
      rw [Table.contains_erase, h]
      simp [hother]
  | use used => exact h

/-- **A call keeps every name registered** but the one that it removes. -/
theorem contains_edit (h : r.contains name = true) (hne : e ≠ .remove name) :
    (r.edit e).registry.contains name = true := by
  unfold contains
  rcases edit_cases r e with ⟨-, he⟩ | ⟨-, store, -, he⟩ | ⟨-, store, cause, -, he⟩
  · rw [he]
    exact h
  · rw [he]
    exact contains_next h hne
  · rw [he]
    exact h

theorem contains_of_removed (h : (r.remove name).result = .ok ()) :
    (r.remove name).registry.contains name = false := by
  obtain ⟨hstate, -⟩ := took_or_device_of_ok (e := .remove name) h
  show (r.edit (.remove name)).registry.state.nodes.contains name = false
  rw [hstate]
  show (r.state.nodes.erase name).contains name = false
  rw [Table.contains_erase]
  simp

end Registry

namespace Session

variable {s : Session} {peer : Peer}

/-! ## Turns -/

/-- Offline mode, if the session is in it, names a registered node. -/
def Anchored (s : Session) : Prop :=
  ∀ node, s.mode = .offline node → s.registry.contains node = true

/-- A call on the registry leaves the session anchored if the mode that it is to lead to names a node
that is registered and that it does not remove. -/
theorem anchored_changeTurn (hs : s.Anchored) {e : Registry.Edit} {mode : Mode} (done : String)
    (hmode : ∀ node, mode = .offline node →
      s.registry.contains node = true ∧ e ≠ .remove node) :
    (s.changeTurn peer (s.registry.edit e) mode done).session.Anchored := by
  unfold changeTurn
  split
  · intro node hnode
    obtain ⟨hmem, hne⟩ := hmode node hnode
    exact Registry.contains_edit hmem hne
  · rename_i cause hcause
    intro node hnode
    have hstate := (Registry.unchanged_of_error hcause).1
    show (s.registry.edit e).registry.state.nodes.contains node = true
    rw [hstate]
    exact hs node hnode

theorem anchored_callTurn {α : Type} (hs : s.Anchored) (c : Call α) (text : α → String)
    (answer : α → List Entry) : (s.callTurn c text answer).session.Anchored := by
  unfold callTurn
  split
  · exact hs
  · exact hs

theorem anchored_commandTurn [Url.Idna] (hs : s.Anchored) (c : Command) :
    (s.commandTurn peer c).session.Anchored := by
  cases c with
  | list => exact hs
  | add name url token =>
      apply anchored_changeTurn hs (e := .add name url token)
      intro node hnode
      exact ⟨hs node hnode, fun h => Registry.Edit.noConfusion h⟩
  | use name =>
      apply anchored_changeTurn hs (e := .use name)
      intro node hnode
      exact ⟨hs node hnode, fun h => Registry.Edit.noConfusion h⟩
  | remove name =>
      unfold commandTurn
      simp only
      split
      · apply anchored_changeTurn hs (e := .remove name)
        intro node hnode
        exact Mode.noConfusion hnode
      · rename_i hother
        apply anchored_changeTurn hs (e := .remove name)
        intro node hnode
        refine ⟨hs node hnode, ?_⟩
        intro hremoved
        cases hremoved
        exact hother hnode
  | tools node => exact anchored_callTurn hs _ _ _
  | invoke tool payload => exact anchored_callTurn hs _ _ _

theorem anchored_modeTurn (hs : s.Anchored) (text : String) :
    (s.modeTurn peer text).session.Anchored := by
  unfold modeTurn
  split
  · exact hs
  · split
    · intro node hnode
      exact Mode.noConfusion hnode
    · unfold offlineTurn
      split
      · exact hs
      · split
        · rename_i hmem
          intro node hnode
          cases hnode
          exact hmem
        · exact hs
    · exact hs

theorem anchored_directTurn [Url.Idna] (hs : s.Anchored) (node line : String) :
    (s.directTurn peer node line).session.Anchored := by
  unfold directTurn
  split
  · exact hs
  · simp only
    split
    · have hasked : Anchored { s with history := s.history ++ [⟨.user, line⟩] } := hs
      exact anchored_callTurn hasked _ _ _
    · exact hs

/-- **A turn leaves offline mode on a registered node**, whatever the line is. -/
theorem anchored_turn [Url.Idna] (hs : s.Anchored) (peer : Peer) (line : String) :
    (s.turn peer line).session.Anchored := by
  unfold turn
  cases Line.read line with
  | blank => exact hs
  | slash text =>
      unfold turnOf slashTurn
      simp only
      split
      · exact anchored_commandTurn hs _
      · exact hs
  | mode text => exact anchored_modeTurn hs text
  | quit => exact hs
  | plain text =>
      unfold turnOf
      simp only
      split
      · exact hs
      · exact anchored_directTurn hs _ text

/-! ## Lines that remove a node -/

theorem mode_changeTurn (c : Registry.Change) (mode : Mode) (done : String) :
    (s.changeTurn peer c mode done).session.mode =
      if c.result.toBool = true then mode else s.mode := by
  unfold changeTurn
  cases c.result with
  | ok _ => rfl
  | error cause => rfl

/-- What a removal does to the mode: the one on the node ends if the removal is made. -/
theorem mode_removeTurn [Url.Idna] (s : Session) (peer : Peer) (name : String) :
    (s.commandTurn peer (.remove name)).session.mode =
      if s.mode = .offline name ∧ (s.registry.remove name).result.toBool = true then .online
      else s.mode := by
  unfold commandTurn
  simp only
  split
  · rename_i hoffline
    rw [mode_changeTurn]
    simp only [hoffline, true_and]
  · rename_i hother
    rw [mode_changeTurn]
    simp only [hother, false_and, if_false, ite_self]

section Removal

variable {line name : String}

theorem registry_of_removal [Url.Idna] (hline : Line.command? line = some (.remove name)) :
    (s.turn peer line).session.registry = (s.registry.remove name).registry := by
  rw [registry_turn, hline]
  rfl

theorem mode_of_removal [Url.Idna] (hline : Line.command? line = some (.remove name)) :
    (s.turn peer line).session.mode =
      if s.mode = .offline name ∧ (s.registry.remove name).result.toBool = true then .online
      else s.mode := by
  rw [turn_of_command s peer hline]
  exact mode_removeTurn s peer name

theorem online_of_removed [Url.Idna] (hline : Line.command? line = some (.remove name))
    (hoffline : s.mode = .offline name) (hmade : (s.registry.remove name).result = .ok ()) :
    (s.turn peer line).session.mode = .online ∧
      (s.turn peer line).session.registry.contains name = false := by
  rw [mode_of_removal hline, registry_of_removal hline, hmade, if_pos ⟨hoffline, rfl⟩]
  exact ⟨rfl, Registry.contains_of_removed hmade⟩

theorem kept_of_unremoved [Url.Idna] (hline : Line.command? line = some (.remove name))
    (hoffline : s.mode = .offline name) {cause : Error}
    (hfailed : (s.registry.remove name).result = .error cause) :
    (s.turn peer line).session.mode = .offline name ∧
      (s.turn peer line).session.registry.state = s.registry.state := by
  have hstate := (Registry.unchanged_of_error (e := .remove name) hfailed).1
  rw [mode_of_removal hline, registry_of_removal hline, hfailed]
  refine ⟨?_, hstate⟩
  rw [if_neg]
  · exact hoffline
  · rintro ⟨-, h⟩
    exact absurd h (by simp [Except.toBool])

theorem mode_of_other_removed [Url.Idna] (hline : Line.command? line = some (.remove name))
    (hother : s.mode ≠ .offline name) : (s.turn peer line).session.mode = s.mode := by
  rw [mode_of_removal hline, if_neg]
  rintro ⟨h, -⟩
  exact hother h

end Removal

/-! ## Runs -/

theorem anchored_after [Url.Idna] (hs : s.Anchored) (moments : List Moment) :
    (s.after peer moments).1.Anchored := by
  apply holds_after _ hs
  intro s peer m hs
  exact anchored_turn (s := s.disturbed m.disturbances) hs _ _

/-- **Offline mode never points at a missing node**: over every registry, and after every run in which
saves may fail and the peer answers as it likes, the node of offline mode is registered. A line that
removes this node ends the mode if the removal is made, and then the node is gone; if it fails, mode and
nodes stay as they were. A line that removes another node leaves the mode alone. -/
theorem offline_registered_after [Url.Idna] (r : Registry) (start : Peer) (moments : List Moment) :
    let s := (after { registry := r } start moments).1
    (∀ node, s.mode = .offline node → s.registry.contains node = true) ∧
    ∀ line name, Line.command? line = some (.remove name) → ∀ peer,
      let t := s.turn peer line
      (s.mode = .offline name → (s.registry.remove name).result = .ok () →
        t.session.mode = .online ∧ t.session.registry.contains name = false) ∧
      (s.mode = .offline name → ∀ cause, (s.registry.remove name).result = .error cause →
        t.session.mode = .offline name ∧ t.session.registry.state = s.registry.state) ∧
      (s.mode ≠ .offline name → t.session.mode = s.mode) := by
  intro s
  have hstart : Anchored { registry := r } := fun node hnode => Mode.noConfusion hnode
  refine ⟨anchored_after hstart moments, ?_⟩
  intro line name hline peer t
  exact ⟨online_of_removed hline, fun hoffline _ hfailed => kept_of_unremoved hline hoffline hfailed,
    mode_of_other_removed hline⟩

end Session

end ToolNodes
