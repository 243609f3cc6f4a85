import ToolNodes.Error
import ToolNodes.Text.Case
import ToolNodes.Text.Quoted

/-!
# The registry

The authoritative set of nodes, with the active one, over a store. A change is worked out on the
state, saved, and only then applied: when the save fails the registry stays as it was. Nodes are
listed by lower-cased name, then by name.
-/

namespace ToolNodes

/-- A state and the store that keeps it. -/
structure Registry where
  store : Store
  state : State

/-- What a change of the registry leaves behind. -/
structure Registry.Change where
  result : Except Error Unit
  registry : Registry
  messages : List Message

namespace Registry

/-! ## Opening and looking up -/

def openStore (store : Store) : Registry × List Message :=
  let (state, messages) := store.loadOrEmpty
  (⟨store, state⟩, messages ++ [.debug ("[NodeRegistry] Loaded " ++ toString state.nodes.size ++
    " node(s) from " ++ store.describe)])

/-- Whether a name comes before another in a listing: by lower case, then as it is. -/
def listsBefore (a b : String) : Bool :=
  let x := Text.lower a
  let y := Text.lower b
  x < y || (x = y && a < b)

def listsUpTo (a b : String) : Bool := !listsBefore b a

def list (r : Registry) : List Node :=
  r.state.nodes.values.mergeSort fun a b => listsUpTo a.name b.name

def get? (r : Registry) (name : String) : Option Node := r.state.nodes.get? name

def contains (r : Registry) (name : String) : Bool := r.state.nodes.contains name

def activeName (r : Registry) : Option String := r.state.active

def activeNode? (r : Registry) : Option Node := r.activeName.bind r.get?

def size (r : Registry) : Nat := r.state.nodes.size

def isEmpty (r : Registry) : Bool := r.state.nodes.isEmpty

/-- The node that an operation is for: the named one, or the active one when no name or an empty
one is given. -/
def resolve (r : Registry) (name : Option String) : Except Error Node :=
  match name.filter fun n => !n.isEmpty with
  | some name =>
    match r.get? name with
    | some node => .ok node
    | none => .error (.notFound name)
  | none =>
    match r.activeNode? with
    | some node => .ok node
    | none => .error .noActiveNode

/-! ## Changes -/

def refuse (r : Registry) (e : Error) : Change := ⟨.error e, r, []⟩

/-- Saves the next state and applies it; `done` is logged on success. -/
def commit (r : Registry) (next : State) (done : String) : Change :=
  match r.store.save next with
  | (store, .ok ()) => ⟨.ok (), ⟨store, next⟩, [.info done]⟩
  | (store, .error e) =>
    ⟨.error (.store e), { r with store },
      [.error ("[NodeRegistry] Failed to save node state to " ++ r.store.describe ++ ": " ++
        e.message)]⟩

/-- The state with a node added; the first node becomes active. -/
def afterAdd (s : State) (name url : String) (token : Option String) : State :=
  ⟨s.active.or (some name), s.nodes.insert name (.normal name url token)⟩

/-- Registers a node under a name, in place of the one that has it. -/
def add (r : Registry) (name url : String) (token : Option String) : Change :=
  if Text.isBlankText name || (normalUrl url).isEmpty then
    r.refuse (.invalidArgument .nameOrUrlMissing)
  else
    r.commit (afterAdd r.state name url token)
      ("[NodeRegistry] " ++ (if r.contains name then "Replaced" else "Added") ++ " node '" ++ name ++
        "'")

/-- The first of some names in listing order. -/
def firstListed : List String → Option String
  | [] => none
  | name :: names =>
    match firstListed names with
    | none => some name
    | some first => some (if listsUpTo name first then name else first)

/-- The state without a node. The selection passes from it to the first that is left. -/
def afterRemove (s : State) (name : String) : State :=
  let nodes := s.nodes.erase name
  ⟨if s.active = some name then firstListed nodes.keys else s.active, nodes⟩

def remove (r : Registry) (name : String) : Change :=
  if r.contains name then
    r.commit (afterRemove r.state name) ("[NodeRegistry] Removed node '" ++ name ++ "'")
  else r.refuse (.notFound name)

def use (r : Registry) (name : String) : Change :=
  if r.contains name then
    r.commit { r.state with active := some name }
      ("[NodeRegistry] Active node set to '" ++ name ++ "'")
  else r.refuse (.notFound name)

/-! ## Text -/

def summary (r : Registry) : String :=
  let active := match r.activeName with
    | some name => "Some(" ++ Text.quoted name ++ ")"
    | none => "None"
  "NodeRegistry \x7b store: " ++ Text.quoted r.store.describe ++ ", active: " ++ active ++
    ", nodes: " ++ toString r.size ++ " \x7d"

end Registry

end ToolNodes
