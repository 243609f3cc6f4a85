import ToolNodes.Proofs.Registry.Run

/-!
# Calls as transactions

A call that fails leaves the state as it was, wherever it fails, and what is stored too, unless its save
breaks off in the file. A call that is made leaves the store with the state that the registry has, unless
the store is a device. The two stay together from then on, for as long as no one else writes to the disk
and nothing breaks off.
-/

namespace ToolNodes.Registry

variable {r : Registry} {e : Edit}

/-! ## One call -/

/-- A call comes to a save, and that breaks off. -/
def BreaksOff (r : Registry) (e : Edit) : Prop :=
  e.Acceptable r.state ∧ r.store.BreaksOff (e.next r.state)

/-- **A call that fails changes nothing**, in the registry and, unless its save breaks off, in the
store. -/
theorem unchanged_of_error {cause : Error} (h : (r.edit e).result = .error cause) :
    (r.edit e).registry.state = r.state ∧
      (¬ r.BreaksOff e → r.store.Kept (r.edit e).registry.store) := by
  rcases edit_cases r e with ⟨-, he⟩ | ⟨-, store, -, he⟩ | ⟨hyes, store, _, hsave, he⟩
  · rw [he]
    exact ⟨rfl, fun _ => Store.Kept.refl r.store⟩
  · rw [he] at h
    exact absurd h (by simp)
  · rw [he]
    exact ⟨rfl, fun hwhole => Store.kept_of_save hsave fun hoff => hwhole ⟨hyes, hoff⟩⟩

/-- **A call that is made leaves the store with the state**, unless the store is a device. -/
theorem took_or_device_of_ok (h : (r.edit e).result = .ok ()) :
    (r.edit e).registry.state = e.next r.state ∧
      (Store.Took (r.edit e).registry.state r.store (r.edit e).registry.store ∨
        ((r.edit e).registry.store.OnDevice ∧ r.store.Kept (r.edit e).registry.store)) := by
  rcases edit_cases r e with ⟨-, he⟩ | ⟨-, store, hsave, he⟩ | ⟨-, store, _, -, he⟩
  · rw [he] at h
    exact absurd h (by simp)
  · rw [he]
    exact ⟨rfl, Store.took_or_device_of_save hsave⟩
  · rw [he] at h
    exact absurd h (by simp)

/-- Whether an event leaves the disk to the registry. -/
def Event.Undisturbed : Event → Prop
  | .disturb (.disk _) => False
  | _ => True

theorem roomy_step (h : r.store.Roomy) {event : Event} (hevent : event.Undisturbed) :
    (r.step event).store.Roomy := by
  cases event with
  | edit e =>
      show (r.edit e).registry.store.Roomy
      rcases edit_cases r e with ⟨-, he⟩ | ⟨-, store, hsave, he⟩ | ⟨-, store, _, hsave, he⟩
      · rw [he]
        exact h
      · rw [he]
        exact Store.roomy_of_save hsave h
      · rw [he]
        exact Store.roomy_of_save hsave h
  | ask q => exact h
  | disturb d =>
      show (r.store.disturbed d).Roomy
      cases d with
      | failing failing =>
          cases hs : r.store with
          | memory m => trivial
          | file f =>
              rw [hs] at h
              exact h
      | disk disk => exact hevent.elim

theorem holds_step (h : r.store.Holds r.state) (hroomy : r.store.Roomy) {event : Event}
    (hevent : event.Undisturbed) : (r.step event).store.Holds (r.step event).state := by
  cases event with
  | edit e =>
      show (r.edit e).registry.store.Holds (r.edit e).registry.state
      cases hresult : (r.edit e).result with
      | ok _ =>
          rcases (took_or_device_of_ok hresult).2 with htook | ⟨hdevice, hkept⟩
          · exact htook.holds
          · exact absurd hdevice (hkept.holds h).not_onDevice
      | error cause =>
          obtain ⟨hstate, hkept⟩ := unchanged_of_error hresult
          rw [hstate]
          exact (hkept fun hoff => Store.not_breaksOff_of_roomy hroomy hoff.2).holds h
  | ask q => exact h
  | disturb d =>
      show (r.store.disturbed d).Holds r.state
      cases d with
      | failing failing =>
          cases hs : r.store with
          | memory m =>
              rw [hs] at h
              exact h
          | file f =>
              rw [hs] at h
              exact h
      | disk disk => exact hevent.elim

/-- Once the store has the state, it keeps up with it. -/
theorem holds_after {events : List Event} (h : r.store.Holds r.state) (hroomy : r.store.Roomy)
    (hevents : ∀ event ∈ events, event.Undisturbed) :
    (r.after events).store.Holds (r.after events).state := by
  induction events generalizing r with
  | nil => exact h
  | cons event events ih =>
      have hevent := hevents event List.mem_cons_self
      exact ih (holds_step h hroomy hevent) (roomy_step hroomy hevent)
        fun later hlater => hevents later (List.mem_cons_of_mem _ hlater)

end ToolNodes.Registry
