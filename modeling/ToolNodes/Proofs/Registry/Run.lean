import ToolNodes.Registry
import ToolNodes.Proofs.Store

/-!
# Runs of a registry

Three calls change a registry, and each is the same step with its own condition and its own next state:
a call that is not acceptable is refused, and one that is goes through the store (`edit_cases`). Between
the calls the surroundings of the store may change as they like (`Store.Disturbance`): saves in memory
are made to fail or to succeed again, and other programs leave another disk behind. `Registry.after` is
the registry at the end of such a run.
-/

namespace ToolNodes

namespace Store

/-- What becomes of the surroundings of a store. -/
inductive Disturbance where
  /-- Saves in memory are made to fail, or no longer. -/
  | failing (failing : Bool)
  /-- Others have left this disk behind. -/
  | disk (disk : Disk)

def disturbed : Store → Disturbance → Store
  | memory m, .failing failing => memory { m with failing }
  | file f, .disk disk => file { f with disk }
  | s, _ => s

end Store

namespace Registry

/-! ## Calls -/

/-- A call that changes the registry. -/
inductive Edit where
  | add (name url : String) (token : Option String)
  | remove (name : String)
  | use (name : String)

/-- A call that only reads. -/
inductive Query where
  | list
  | get (name : String)
  | contains (name : String)
  | activeName
  | activeNode
  | size
  | isEmpty
  | resolve (name : Option String)
  | summary

/-- What a call that only reads returns. -/
inductive Answer where
  | nodes (nodes : List Node)
  | node (node : Option Node)
  | name (name : Option String)
  | number (number : Nat)
  | whether (holds : Bool)
  | resolved (node : Except Error Node)
  | text (text : String)

/-- Answers a call that only reads. -/
def answer (r : Registry) : Query → Answer
  | .list => .nodes r.list
  | .get name => .node (r.get? name)
  | .contains name => .whether (r.contains name)
  | .activeName => .name r.activeName
  | .activeNode => .node r.activeNode?
  | .size => .number r.size
  | .isEmpty => .whether r.isEmpty
  | .resolve name => .resolved (r.resolve name)
  | .summary => .text r.summary

/-- Makes a call that only reads: what it returns, and the registry that it leaves. -/
def ask (r : Registry) (q : Query) : Answer × Registry := (r.answer q, r)

def edit (r : Registry) : Edit → Change
  | .add name url token => r.add name url token
  | .remove name => r.remove name
  | .use name => r.use name

namespace Edit

/-- Whether the arguments of a call will do in a state. -/
def Acceptable (s : State) : Edit → Prop
  | add name url _ => Text.isBlankText name = false ∧ (normalUrl url).isEmpty = false
  | remove name => s.nodes.contains name = true
  | use name => s.nodes.contains name = true

def refusal : Edit → Error
  | add _ _ _ => .invalidArgument .nameOrUrlMissing
  | remove name => .notFound name
  | use name => .notFound name

/-- The state that a call is to lead to. -/
def next (s : State) : Edit → State
  | add name url token => afterAdd s name url token
  | remove name => afterRemove s name
  | use name => { s with active := some name }

def done (s : State) : Edit → String
  | add name _ _ =>
    "[NodeRegistry] " ++ (if s.nodes.contains name then "Replaced" else "Added") ++ " node '" ++
      name ++ "'"
  | remove name => "[NodeRegistry] Removed node '" ++ name ++ "'"
  | use name => "[NodeRegistry] Active node set to '" ++ name ++ "'"

end Edit

/-! ## What a call does -/

def unsaved (store : Store) (cause : StoreError) : Message :=
  .error ("[NodeRegistry] Failed to save node state to " ++ store.describe ++ ": " ++ cause.message)

theorem edit_of_acceptable {r : Registry} {e : Edit} (h : e.Acceptable r.state) :
    r.edit e = r.commit (e.next r.state) (e.done r.state) := by
  cases e with
  | add name url token =>
      obtain ⟨hname, hurl⟩ := h
      show r.add name url token = _
      unfold add
      rw [hname, hurl]
      rfl
  | remove name =>
      have hmem : r.state.nodes.contains name = true := h
      show r.remove name = _
      unfold remove contains
      rw [if_pos hmem]
      rfl
  | use name =>
      have hmem : r.state.nodes.contains name = true := h
      show r.use name = _
      unfold use contains
      rw [if_pos hmem]
      rfl

theorem edit_of_not_acceptable {r : Registry} {e : Edit} (h : ¬ e.Acceptable r.state) :
    r.edit e = r.refuse e.refusal := by
  cases e with
  | add name url token =>
      show r.add name url token = _
      unfold add
      rw [if_pos]
      · rfl
      · by_contra hnot
        simp only [Bool.or_eq_true, not_or, Bool.not_eq_true] at hnot
        exact h hnot
  | remove name =>
      have hmem : ¬ r.state.nodes.contains name = true := h
      show r.remove name = _
      unfold remove contains
      rw [if_neg hmem]
      rfl
  | use name =>
      have hmem : ¬ r.state.nodes.contains name = true := h
      show r.use name = _
      unfold use contains
      rw [if_neg hmem]
      rfl

theorem commit_of_saved {r : Registry} {next : State} {store : Store} (done : String)
    (h : r.store.save next = (store, .ok ())) :
    r.commit next done = ⟨.ok (), ⟨store, next⟩, [.info done]⟩ := by
  unfold commit
  rw [h]

theorem commit_of_unsaved {r : Registry} {next : State} {store : Store} {cause : StoreError}
    (done : String) (h : r.store.save next = (store, .error cause)) :
    r.commit next done = ⟨.error (.store cause), ⟨store, r.state⟩, [unsaved r.store cause]⟩ := by
  unfold commit
  rw [h]
  rfl

/-- **All that a call can do**: it is refused, or made, or its save fails. -/
theorem edit_cases (r : Registry) (e : Edit) :
    (¬ e.Acceptable r.state ∧ r.edit e = ⟨.error e.refusal, r, []⟩) ∨
    (e.Acceptable r.state ∧ ∃ store, r.store.save (e.next r.state) = (store, .ok ()) ∧
      r.edit e = ⟨.ok (), ⟨store, e.next r.state⟩, [.info (e.done r.state)]⟩) ∨
    (e.Acceptable r.state ∧ ∃ store cause, r.store.save (e.next r.state) = (store, .error cause) ∧
      r.edit e = ⟨.error (.store cause), ⟨store, r.state⟩, [unsaved r.store cause]⟩) := by
  by_cases h : e.Acceptable r.state
  · rw [edit_of_acceptable h]
    cases hsaved : r.store.save (e.next r.state) with
    | mk store result =>
        cases result with
        | ok _ => exact Or.inr (Or.inl ⟨h, store, rfl, commit_of_saved _ hsaved⟩)
        | error cause =>
            exact Or.inr (Or.inr ⟨h, store, cause, rfl, commit_of_unsaved _ hsaved⟩)
  · exact Or.inl ⟨h, edit_of_not_acceptable h⟩

/-- **All that a call can do to the state**: nothing, or what it is to do. -/
theorem state_edit (r : Registry) (e : Edit) :
    (r.edit e).registry.state = r.state ∨
      (e.Acceptable r.state ∧ (r.edit e).registry.state = e.next r.state) := by
  rcases edit_cases r e with ⟨-, h⟩ | ⟨he, store, -, h⟩ | ⟨-, store, cause, -, h⟩
  · exact Or.inl (by rw [h])
  · exact Or.inr ⟨he, by rw [h]⟩
  · exact Or.inl (by rw [h])

/-! ## How saves end -/

instance Edit.decidableAcceptable (s : State) : (e : Edit) → Decidable (e.Acceptable s)
  | .add _ _ _ => inferInstanceAs (Decidable (_ ∧ _))
  | .remove _ => inferInstanceAs (Decidable (_ = true))
  | .use _ => inferInstanceAs (Decidable (_ = true))

/-- How the save of a call ends, if the call comes to one. -/
def saveOf (r : Registry) (e : Edit) : Option (Except StoreError Unit) :=
  if e.Acceptable r.state then some (r.store.save (e.next r.state)).2 else none

/-- A call does what the end of its save says, over a store of the same name. -/
theorem edit_of_saveOf (r : Registry) (e : Edit) :
    (r.saveOf e = none ∧ r.edit e = ⟨.error e.refusal, r, []⟩) ∨
    (r.saveOf e = some (.ok ()) ∧ ∃ store : Store, store.describe = r.store.describe ∧
      r.edit e = ⟨.ok (), ⟨store, e.next r.state⟩, [.info (e.done r.state)]⟩) ∨
    (∃ cause, r.saveOf e = some (.error cause) ∧ ∃ store : Store,
      store.describe = r.store.describe ∧
      r.edit e = ⟨.error (.store cause), ⟨store, r.state⟩, [unsaved r.store cause]⟩) := by
  unfold saveOf
  rcases edit_cases r e with ⟨hno, he⟩ | ⟨hyes, store, hsave, he⟩ | ⟨hyes, store, cause, hsave, he⟩
  · rw [if_neg hno]
    exact Or.inl ⟨rfl, he⟩
  · rw [if_pos hyes, hsave]
    exact Or.inr (Or.inl ⟨rfl, store, Store.describe_of_save hsave, he⟩)
  · rw [if_pos hyes, hsave]
    exact Or.inr (Or.inr ⟨cause, rfl, store, Store.describe_of_save hsave, he⟩)

theorem made_of_toBool {c : Change} (h : c.result.toBool = true) : c.result = .ok () := by
  cases hresult : c.result with
  | ok _ => rfl
  | error cause =>
      rw [hresult] at h
      exact absurd h (by simp [Except.toBool])

/-! ## Runs -/

/-- What a registry meets: the calls on it, and what becomes of the surroundings of its store. -/
inductive Event where
  | edit (e : Edit)
  | ask (q : Query)
  | disturb (d : Store.Disturbance)

def step (r : Registry) : Event → Registry
  | .edit e => (r.edit e).registry
  | .ask q => (r.ask q).2
  | .disturb d => { r with store := r.store.disturbed d }

def after (r : Registry) (events : List Event) : Registry := events.foldl step r

variable {r : Registry}

/-- **All that an event can do to the state**: nothing, or what an acceptable call is to do. -/
theorem step_state (r : Registry) (event : Event) :
    (r.step event).state = r.state ∨
      ∃ e : Edit, e.Acceptable r.state ∧ (r.step event).state = e.next r.state := by
  cases event with
  | edit e =>
      rcases state_edit r e with h | ⟨he, h⟩
      · exact Or.inl h
      · exact Or.inr ⟨e, he, h⟩
  | ask q => exact Or.inl rfl
  | disturb d => exact Or.inl rfl

/-- What acceptable calls preserve holds after every run. -/
theorem state_after {P : State → Prop} (events : List Event) (h : P r.state)
    (hnext : ∀ s (e : Edit), P s → e.Acceptable s → P (e.next s)) : P (r.after events).state := by
  induction events generalizing r with
  | nil => exact h
  | cons event events ih =>
      apply ih
      rcases step_state r event with heq | ⟨e, he, heq⟩
      · rw [heq]
        exact h
      · rw [heq]
        exact hnext r.state e h he

/-- A registry over a file stays over this file. -/
theorem store_step {path : String} {disk : Disk} (h : r.store = .file ⟨path, disk⟩) (event : Event) :
    ∃ disk', (r.step event).store = .file ⟨path, disk'⟩ := by
  have hsave : ∀ {state store result}, r.store.save state = (store, result) →
      ∃ disk', store = .file ⟨path, disk'⟩ := by
    intro state store result hs
    rw [h] at hs
    obtain ⟨f, hf, rfl⟩ := Store.save_file_eq hs
    have hpath : f.path = path := FileStore.path_of_save hf
    rw [← hpath]
    exact ⟨f.disk, rfl⟩
  cases event with
  | edit e =>
      rcases edit_cases r e with ⟨-, he⟩ | ⟨-, store, hs, he⟩ | ⟨-, store, cause, hs, he⟩
      · exact ⟨disk, by rw [step, he, h]⟩
      · rw [step, he]
        exact hsave hs
      · rw [step, he]
        exact hsave hs
  | ask q => exact ⟨disk, h⟩
  | disturb d =>
      rw [step, h]
      cases d with
      | failing failing => exact ⟨disk, rfl⟩
      | disk disk' => exact ⟨disk', rfl⟩

theorem store_after {path : String} {disk : Disk} (events : List Event)
    (h : r.store = .file ⟨path, disk⟩) : ∃ disk', (r.after events).store = .file ⟨path, disk'⟩ := by
  induction events generalizing r disk with
  | nil => exact ⟨disk, h⟩
  | cons event events ih =>
      obtain ⟨disk', h'⟩ := store_step h event
      exact ih h'

end Registry

end ToolNodes
