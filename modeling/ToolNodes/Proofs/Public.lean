import ToolNodes.Client
import ToolNodes.Proofs.Registry.Run

/-!
# What is public of a registry

The public part of a node shows that it has a token, and hides the token itself if it can be sent: if
it is not blank and a header can hold it. A token that cannot be sent stays, since a request that is
refused for it shows as much. Registries with the same public part list, resolve and report the same;
and a call that changes them the same way in public leaves them with the same public part.
-/

namespace ToolNodes

/-! ## Tokens and nodes -/

def sentToken (token : String) : Bool := !Text.isBlankText token && Client.fitsHeader token

/-- A token, hidden if it is sent. -/
def hidden (token : String) : String := if sentToken token then "*" else token

@[simp] theorem isBlankText_hidden (token : String) :
    Text.isBlankText (hidden token) = Text.isBlankText token := by
  unfold hidden
  split
  · rename_i h
    simp only [sentToken, Bool.and_eq_true, Bool.not_eq_true'] at h
    rw [h.1]
    decide
  · rfl

@[simp] theorem fitsHeader_hidden (token : String) :
    Client.fitsHeader (hidden token) = Client.fitsHeader token := by
  unfold hidden
  split
  · rename_i h
    simp only [sentToken, Bool.and_eq_true] at h
    rw [h.2]
    decide
  · rfl

/-- **What hiding leaves**: two tokens look alike if they are the same or both are sent. -/
theorem hidden_eq_iff {a b : String} :
    hidden a = hidden b ↔ a = b ∨ (sentToken a = true ∧ sentToken b = true) := by
  have hstar : sentToken "*" = true := by decide
  unfold hidden
  constructor
  · intro h
    split at h
    · rename_i ha
      split at h
      · rename_i hb
        exact Or.inr ⟨ha, hb⟩
      · rename_i hb
        rw [← h] at hb
        exact absurd hstar hb
    · rename_i ha
      split at h
      · rw [h] at ha
        exact absurd hstar ha
      · exact Or.inl h
  · rintro (rfl | ⟨ha, hb⟩)
    · rfl
    · rw [if_pos ha, if_pos hb]

def Node.public (node : Node) : Node := { node with token := node.token.map hidden }

theorem normalToken_hidden (token : Option String) :
    normalToken (token.map hidden) = (normalToken token).map hidden := by
  unfold normalToken
  cases token with
  | none => rfl
  | some t =>
      simp only [Option.map_some, Option.filter_some, isBlankText_hidden]
      split
      · rfl
      · rfl

theorem Node.public_normal (name url : String) (token : Option String) :
    (Node.normal name url token).public = Node.normal name url (token.map hidden) := by
  unfold Node.normal Node.public
  rw [normalToken_hidden]

/-! ## States -/

def State.public (s : State) : State := { s with nodes := s.nodes.map Node.public }

namespace Registry

variable {r r' : Registry} {s : State}

def Edit.public : Edit → Edit
  | .add name url token => .add name url (token.map hidden)
  | e => e

theorem public_next (s : State) (e : Edit) : (e.next s).public = e.public.next s.public := by
  cases e with
  | add name url token =>
      show State.mk _ ((s.nodes.insert name (.normal name url token)).map Node.public) = _
      rw [Table.map_insert, Node.public_normal]
      rfl
  | remove name =>
      show State.mk (if s.active = some name then firstListed (s.nodes.erase name).keys else s.active)
        ((s.nodes.erase name).map Node.public) = _
      rw [← Table.keys_map Node.public, Table.map_erase]
      rfl
  | use name => rfl

theorem done_public (s : State) (e : Edit) : e.public.done s.public = e.done s := by
  cases e with
  | add name url token =>
      show "[NodeRegistry] " ++ (if s.public.nodes.contains name then _ else _) ++ _ ++ _ ++ _ = _
      unfold State.public
      rw [Table.contains_map]
      rfl
  | remove name => rfl
  | use name => rfl

theorem refusal_public (e : Edit) : e.public.refusal = e.refusal := by
  cases e with
  | add name url token => rfl
  | remove name => rfl
  | use name => rfl

/-! ## What a registry tells -/

theorem contains_of_public (h : r.state.public = r'.state.public) (name : String) :
    r.contains name = r'.contains name := by
  have h' := congrArg (fun s : State => s.nodes.contains name) h
  simpa [State.public, contains] using h'

theorem activeName_of_public (h : r.state.public = r'.state.public) :
    r.activeName = r'.activeName := by
  have h' := congrArg State.active h
  exact h'

theorem get?_of_public (h : r.state.public = r'.state.public) (name : String) :
    (r.get? name).map Node.public = (r'.get? name).map Node.public := by
  have h' := congrArg (fun s : State => s.nodes.get? name) h
  simpa [State.public, get?] using h'

theorem list_of_public (h : r.state.public = r'.state.public) :
    r.list.map Node.public = r'.list.map Node.public := by
  have hvalues := congrArg (fun s : State => s.nodes.values) h
  have hvalues : r.state.nodes.values.map Node.public = r'.state.nodes.values.map Node.public := by
    simpa [State.public] using hvalues
  -- Sorting goes by name, which is public, so it may as well come after the hiding.
  have hsort : ∀ nodes : List Node,
      (nodes.mergeSort fun a b => listsUpTo a.name b.name).map Node.public =
        (nodes.map Node.public).mergeSort fun a b => listsUpTo a.name b.name := by
    intro nodes
    exact List.map_mergeSort fun a _ b _ => rfl
  unfold list
  rw [hsort, hsort, hvalues]

/-- What is found, or an error in its place. -/
theorem found_of_public (e : Error) : ∀ {a b : Option Node},
    a.map Node.public = b.map Node.public →
      (match a with
        | some node => .ok node
        | none => .error e : Except Error Node).map Node.public =
      (match b with
        | some node => .ok node
        | none => .error e : Except Error Node).map Node.public
  | none, none, _ => rfl
  | none, some _, h => absurd h (by simp)
  | some _, none, h => absurd h (by simp)
  | some _, some _, h => congrArg Except.ok (Option.some.inj h)

/-- Registries with the same public part resolve to nodes with the same public part. -/
theorem resolve_of_public (h : r.state.public = r'.state.public) (name : Option String) :
    (r.resolve name).map Node.public = (r'.resolve name).map Node.public := by
  unfold resolve
  split
  · rename_i given _
    exact found_of_public (.notFound given) (get?_of_public h given)
  · apply found_of_public .noActiveNode
    unfold activeNode?
    rw [activeName_of_public h]
    cases r'.activeName with
    | none => rfl
    | some active => exact get?_of_public h active

end Registry

end ToolNodes
