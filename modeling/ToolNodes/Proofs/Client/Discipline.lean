import ToolNodes.CommandLine
import ToolNodes.Proofs.Client.Request
import ToolNodes.Proofs.Session.Run

/-!
# Which calls send a request

A call comes to one request at most, and leaves the registry with its store alone. What keeps the request
from being sent is looked at in a fixed order: the name of the tool, the node that the call is for, the
URL of that node, and at last whether a request can carry the token and the URL (`requests_of_call`). URL
and token are always those of one node, and which one that is `Registry.Targets` says without the client.
-/

namespace ToolNodes

/-! ## The node that a call is for -/

/-- The node that a name is for: the one that is registered under it, or the active one when there is
no name or an empty one. -/
inductive Registry.Targets (r : Registry) : Option String → Node → Prop where
  | named {name : String} {node : Node} (ne : name ≠ "") (get : r.get? name = some node) :
      Targets r (some name) node
  | active {name : Option String} {node : Node} (none : name.getD "" = "")
      (active : r.activeNode? = some node) : Targets r name node

namespace Registry

variable {r : Registry} {name : Option String}

theorem filter_eq_none_of_getD (h : name.getD "" = "") :
    (name.filter fun n => !n.isEmpty) = none := by
  cases name with
  | none => rfl
  | some n =>
      have hn : n = "" := h
      rw [hn]
      rfl

theorem filter_eq_some_of_ne {n : String} (h : n ≠ "") :
    ((some n).filter fun n => !n.isEmpty) = some n := by
  simp [h]

theorem resolve_of_unregistered {n : String} (hne : n ≠ "") (h : r.get? n = none) :
    r.resolve (some n) = .error (.notFound n) := by
  unfold resolve
  rw [filter_eq_some_of_ne hne]
  simp only
  rw [h]

theorem resolve_of_no_active (hnone : name.getD "" = "") (h : r.activeNode? = none) :
    r.resolve name = .error .noActiveNode := by
  unfold resolve
  rw [filter_eq_none_of_getD hnone]
  simp only
  rw [h]

theorem resolve_of_targets {node : Node} (h : r.Targets name node) : r.resolve name = .ok node := by
  unfold resolve
  cases h with
  | named hne hget =>
      rw [filter_eq_some_of_ne hne]
      simp only
      rw [hget]
  | active hnone hactive =>
      rw [filter_eq_none_of_getD hnone]
      simp only
      rw [hactive]

/-- **A name is for a node or for none**: an unregistered one, or no name without an active node. -/
theorem targets_cases (r : Registry) (name : Option String) :
    (∃ n, name = some n ∧ n ≠ "" ∧ r.get? n = none) ∨
    (name.getD "" = "" ∧ r.activeNode? = none) ∨ ∃ node, r.Targets name node := by
  by_cases hnone : name.getD "" = ""
  · cases hactive : r.activeNode? with
    | none => exact Or.inr (Or.inl ⟨hnone, rfl⟩)
    | some node => exact Or.inr (Or.inr ⟨node, .active hnone hactive⟩)
  · cases name with
    | none => exact absurd rfl hnone
    | some n =>
        cases hget : r.get? n with
        | none => exact Or.inl ⟨n, rfl, hnone, hget⟩
        | some node => exact Or.inr (Or.inr ⟨node, .named hnone hget⟩)

theorem targets_of_resolve {node : Node} (h : r.resolve name = .ok node) : r.Targets name node := by
  rcases targets_cases r name with ⟨n, rfl, hne, hget⟩ | ⟨hnone, hactive⟩ | ⟨other, hother⟩
  · rw [resolve_of_unregistered hne hget] at h
    exact absurd h (by simp)
  · rw [resolve_of_no_active hnone hactive] at h
    exact absurd h (by simp)
  · rw [resolve_of_targets hother] at h
    rw [← Except.ok.inj h]
    exact hother

end Registry

/-- A call of a tool goes to the node that its name is for. -/
theorem Client.invoke_of_targets [Url.Idna] {r : Registry} {name : Option String} {node : Node}
    (h : r.Targets name node) (tool : String) (payload : Json) (context : Option Json) (peer : Peer) :
    invoke r tool payload name context peer = invokeAt node tool ⟨payload, context⟩ peer := by
  unfold invoke
  rw [Registry.resolve_of_targets h]
  -- The name of the tool is looked at before the node is found, and once more with the node.
  cases hcheck : checkToolName tool with
  | error e =>
      unfold invokeAt
      rw [hcheck]
  | ok _ => rfl

/-! ## Carrying out an operation -/

namespace Operation

/-- Carries it out at the node that a name is for. Of the result only an error is kept. -/
def perform [Url.Idna] (op : Operation) (r : Registry) (name : Option String) (peer : Peer) :
    Call Unit :=
  match op with
  | listTools => (Client.listTools r name peer).map fun _ => ()
  | invoke tool envelope =>
    (Client.invoke r tool envelope.input name envelope.context peer).map fun _ => ()

variable {op : Operation} {node : Node} {url : Url} {r : Registry} {name : Option String}
  {peer : Peer}

/-- A call of a tool whose name cannot travel is refused, whatever else holds. -/
theorem perform_of_bad [Url.Idna] (h : ¬ op.ToolFits) (r : Registry) (name : Option String)
    (peer : Peer) :
    ∃ reason, op.perform r name peer = .refuse peer (.invalidArgument reason) := by
  cases op with
  | listTools => exact absurd toolFits_listTools h
  | invoke tool envelope =>
      rw [toolFits_invoke_iff, not_not] at h
      obtain ⟨reason, hreason⟩ := checkToolName_of_bad h
      refine ⟨reason, ?_⟩
      show (Client.invoke r tool envelope.input name envelope.context peer).map _ = _
      unfold Client.invoke
      rw [hreason]
      rfl

theorem perform_of_unresolved [Url.Idna] (h : op.ToolFits) {e : Error}
    (hr : r.resolve name = .error e) :
    op.perform r name peer = .refuse peer e := by
  cases op with
  | listTools =>
      show (Client.listTools r name peer).map _ = _
      unfold Client.listTools
      rw [hr]
      rfl
  | invoke tool envelope =>
      show (Client.invoke r tool envelope.input name envelope.context peer).map _ = _
      unfold Client.invoke
      rw [checkToolName_of_fits (h tool rfl), hr]
      rfl

theorem perform_of_targets [Url.Idna] (hr : r.Targets name node) :
    op.perform r name peer = op.performAt node peer := by
  cases op with
  | listTools =>
      show (Client.listTools r name peer).map _ = _
      unfold Client.listTools
      rw [Registry.resolve_of_targets hr]
      rfl
  | invoke tool envelope =>
      show (Client.invoke r tool envelope.input name envelope.context peer).map _ = _
      rw [Client.invoke_of_targets hr]
      rfl

/-! ## At most one request -/

/-- What the peer gets is one request at most, and no more than ten that follow on it, and these only if
the next reply sends it elsewhere. -/
def AsksOnce (before after : Peer) : Prop :=
  ∃ sent further : List Request, sent.length ≤ 1 ∧ after.seen = before.seen ++ sent ∧
    further.length ≤ 10 ∧ after.followed = before.followed ++ further ∧
    (further ≠ [] → sent ≠ [] ∧ ∃ reply url, before.next? = some reply ∧ reply.target? = some url)

theorem asksOnce_self (peer : Peer) : AsksOnce peer peer :=
  ⟨[], [], Nat.zero_le 1, (List.append_nil _).symm, Nat.zero_le 10, (List.append_nil _).symm,
    fun h => absurd rfl h⟩

theorem asksOnce_send (peer : Peer) (q : Request) : AsksOnce peer (peer.send q).1 := by
  unfold Peer.send
  split
  · obtain ⟨further, hlength, hfollowed, hredirect⟩ :=
      Client.followed_follow maxRedirects (peer.sees q) q none
    exact ⟨[q], further, Nat.le_refl 1, Client.seen_follow _ _ _ _, hlength, hfollowed,
      fun h => ⟨List.cons_ne_nil _ _, hredirect h⟩⟩
  · exact asksOnce_self peer

/-- **What is sent goes to the node that the call is for.** -/
theorem perform_sends [Url.Idna] (op : Operation) (hr : r.Targets name node) (peer : Peer) :
    op.SendsOnly node peer (op.perform r name peer).peer := by
  by_cases h : op.ToolFits
  · rw [perform_of_targets hr]
    exact performAt_sends h node peer
  · obtain ⟨reason, hreason⟩ := perform_of_bad h r name peer
    rw [hreason]
    exact Or.inl rfl

theorem perform_keeps [Url.Idna] (op : Operation) {e : Error} (hr : r.resolve name = .error e)
    (peer : Peer) :
    (op.perform r name peer).peer = peer := by
  by_cases h : op.ToolFits
  · rw [perform_of_unresolved h hr]
    rfl
  · obtain ⟨reason, hreason⟩ := perform_of_bad h r name peer
    rw [hreason]
    rfl

theorem asksOnce_perform [Url.Idna] (op : Operation) (r : Registry) (name : Option String)
    (peer : Peer) : AsksOnce peer (op.perform r name peer).peer := by
  cases hr : r.resolve name with
  | error e =>
      rw [perform_keeps op hr]
      exact asksOnce_self peer
  | ok node =>
      rcases perform_sends op (Registry.targets_of_resolve hr) peer with h | ⟨url, -, h⟩
      · rw [h]
        exact asksOnce_self peer
      · rw [h]
        exact asksOnce_send peer _

/-! ## The registry is left alone -/

theorem registry_call {α : Type} (r : Registry) (c : Call α) (text : α → String) :
    (CommandLine.call r c text).registry = r := by
  unfold CommandLine.call
  split
  · rfl
  · rfl

/-- Tasks of the command line that call nodes leave the registry as it is. -/
theorem registry_of_task [Url.Idna] (r : Registry) (peer : Peer) (stdin : List UInt8)
    (name : Option String) :
    (CommandLine.perform r peer stdin (.tools name)).registry = r ∧
      ∀ tool payload context,
        (CommandLine.perform r peer stdin (.invoke tool payload name context)).registry = r := by
  refine ⟨registry_call _ _ _, ?_⟩
  intro tool payload context
  unfold CommandLine.perform
  simp only
  split
  · rfl
  · exact registry_call _ _ _

/-- Lines of a session that make no call on the registry leave it as it is. -/
theorem registry_of_line [Url.Idna] (s : Session) (peer : Peer) {line : String}
    (h : (Line.command? line).bind Command.edit? = none) :
    (s.turn peer line).session.registry = s.registry := by
  rw [Session.registry_turn, h]
  rfl

/-! ## Every call -/

/-- What a call at a node comes to, by what its URL is and what a request can carry. -/
structure ComesTo [Url.Idna] (op : Operation) (node : Node) (peer : Peer) (call : Call Unit) :
    Prop where
  /-- The URL of the node cannot be read. -/
  unread : ∀ cause, Url.parse node.url = .error cause →
    call.result = .error (.invalidArgument (.urlInvalid node.name cause)) ∧ call.peer = peer
  /-- It takes no path. -/
  pathless : ∀ base, Url.parse node.url = .ok base →
    base.extend? (op.segments.map String.toList) = none →
      call.result = .error (.invalidArgument (.urlWithoutPath node.name node.url)) ∧
        call.peer = peer
  /-- A request cannot carry the token or the URL. -/
  unsendable : ∀ base url, Url.parse node.url = .ok base →
    base.extend? (op.segments.map String.toList) = some url → Client.Unsendable node url →
      Client.FailsInTransit call.result url none ∧ call.peer = peer
  /-- In every other case the peer gets one request, and sees it if it can be reached. -/
  sent : ∀ base url, Url.parse node.url = .ok base →
    base.extend? (op.segments.map String.toList) = some url → ¬ Client.Unsendable node url →
      call.peer = (peer.send (op.request node url)).1 ∧
        (peer.reachable = true → call.peer.seen = peer.seen ++ [op.request node url]) ∧
        (op.request node url).values "authorization" =
          (url.credentials?.map Url.Credentials.basic).toList ++
            (node.token.map fun token => "Bearer " ++ token).toList

theorem performAt_comesTo [Url.Idna] (h : op.ToolFits) (node : Node) (peer : Peer) :
    op.ComesTo node peer (op.performAt node peer) where
  unread := by
    intro cause hparse
    have hurl : Client.endpoint node op.segments =
        .error (.invalidArgument (.urlInvalid node.name cause)) := by
      unfold Client.endpoint
      rw [hparse]
    rw [performAt_of_no_endpoint h hurl]
    exact ⟨rfl, rfl⟩
  pathless := by
    intro base hparse hextend
    have hurl : Client.endpoint node op.segments =
        .error (.invalidArgument (.urlWithoutPath node.name node.url)) := by
      unfold Client.endpoint
      rw [hparse]
      simp only
      rw [hextend]
    rw [performAt_of_no_endpoint h hurl]
    exact ⟨rfl, rfl⟩
  unsendable := by
    intro base url hparse hextend hun
    exact performAt_of_unsendable h (Client.endpoint_of_extend hparse hextend) hun
  sent := by
    intro base url hparse hextend hsendable
    rw [performAt_of_sendable h (Client.endpoint_of_extend hparse hextend) hsendable]
    refine ⟨rfl, ?_, Client.authorization_of_request op node url⟩
    intro hreachable
    unfold Peer.send
    rw [if_pos hreachable]
    exact Client.seen_follow _ _ _ _

/-- A call that fits is for no node and refused, or comes to what a call at its node does. -/
theorem perform_comesTo [Url.Idna] (h : op.ToolFits) (r : Registry) (name : Option String)
    (peer : Peer) :
    (∃ n, name = some n ∧ n ≠ "" ∧ r.get? n = none ∧
      op.perform r name peer = .refuse peer (.notFound n)) ∨
    (name.getD "" = "" ∧ r.activeNode? = none ∧
      op.perform r name peer = .refuse peer .noActiveNode) ∨
    ∃ node, r.Targets name node ∧ op.ComesTo node peer (op.perform r name peer) := by
  rcases Registry.targets_cases r name with ⟨n, rfl, hne, hget⟩ | ⟨hnone, hactive⟩ | ⟨node, hnode⟩
  · exact Or.inl ⟨n, rfl, hne, hget,
      perform_of_unresolved h (Registry.resolve_of_unregistered hne hget)⟩
  · exact Or.inr (Or.inl ⟨hnone, hactive,
      perform_of_unresolved h (Registry.resolve_of_no_active hnone hactive)⟩)
  · rw [perform_of_targets hnode]
    exact Or.inr (Or.inr ⟨node, hnode, performAt_comesTo h node peer⟩)

/-- **Which calls send a request.** A call sends one at most, and whoever makes it, the registry with its
store is left alone. None is sent, and the first of these reasons that holds is the error: the name of
the tool cannot travel; the node that is named is not registered; none is named and there is no active
node; the URL of the node cannot be read, or takes no path; a request cannot carry the token or the URL.
In every other case one request is sent, to the endpoint behind the node's own URL, with the method and
the body of the operation, and with the node's own token behind `Bearer `, behind an authorization by the
credentials of its URL if there are any, and without any authorization if there is neither. Only if that
request is answered by a redirect others follow on it, ten at most. -/
theorem requests_of_call [Url.Idna] (op : Operation) (r : Registry) (name : Option String)
    (peer : Peer) :
    let call := op.perform r name peer
    AsksOnce peer call.peer ∧
    (∀ stdin, (CommandLine.perform r peer stdin (.tools name)).registry = r ∧
      ∀ tool payload context,
        (CommandLine.perform r peer stdin (.invoke tool payload name context)).registry = r) ∧
    (∀ (s : Session) (line : String), s.registry = r →
      (Line.command? line).bind Command.edit? = none → (s.turn peer line).session.registry = r) ∧
    (¬ op.ToolFits →
      (∃ reason, call.result = .error (.invalidArgument reason)) ∧ call.peer = peer) ∧
    (op.ToolFits →
      ((∃ n, name = some n ∧ n ≠ "" ∧ r.get? n = none ∧
          call.result = .error (.notFound n) ∧ call.peer = peer) ∨
        (name.getD "" = "" ∧ r.activeNode? = none ∧
          call.result = .error .noActiveNode ∧ call.peer = peer) ∨
        ∃ node, r.Targets name node ∧ op.ComesTo node peer call)) := by
  intro call
  refine ⟨asksOnce_perform op r name peer, fun stdin => registry_of_task r peer stdin name, ?_, ?_, ?_⟩
  · intro s line hs hline
    rw [← hs]
    exact registry_of_line s peer hline
  · intro hbad
    obtain ⟨reason, hreason⟩ := perform_of_bad hbad r name peer
    exact ⟨⟨reason, congrArg Call.result hreason⟩, congrArg Call.peer hreason⟩
  · intro hfits
    rcases perform_comesTo hfits r name peer with ⟨n, hname, hne, hget, hcall⟩ |
      ⟨hnone, hactive, hcall⟩ | hnode
    · exact Or.inl ⟨n, hname, hne, hget, congrArg Call.result hcall, congrArg Call.peer hcall⟩
    · exact Or.inr (Or.inl ⟨hnone, hactive, congrArg Call.result hcall, congrArg Call.peer hcall⟩)
    · exact Or.inr (Or.inr hnode)

/-- A node whose URL can be read and takes a path need not get a request, though its scheme is `http` and
it has no token: a request line holds no brace. -/
theorem not_always_sent :
    ¬ ∀ [Url.Idna] (op : Operation) (r : Registry) (name : Option String) (peer : Peer) (node : Node)
      (base url : Url), op.ToolFits → r.Targets name node → Url.parse node.url = .ok base →
        base.extend? (op.segments.map String.toList) = some url → node.token = none →
          Client.sendable url.scheme = true →
            (op.perform r name peer).peer = (peer.send (op.request node url)).1 := by
  intro hall
  let _ : Url.Idna := .ascii
  let node : Node := ⟨"a", "http://a\x7bb", none⟩
  let r : Registry := ⟨.memory {}, ⟨some "a", Table.ofList [("a", node)]⟩⟩
  let base : Url := ⟨"http".toList, some ⟨[], "a\x7bb".toList, none⟩, .segments [[]], none, none⟩
  let url : Url := { base with path := .segments ["tools".toList] }
  have hnode : r.Targets none node := .active rfl (by decide +kernel)
  have hparse : Url.parse node.url = .ok base := by decide +kernel
  have hextend : base.extend? (listTools.segments.map String.toList) = some url := by decide +kernel
  have hsent :=
    hall listTools r none {} node base url toolFits_listTools hnode hparse hextend rfl (by decide)
  have hseen := congrArg (fun p => p.seen.length) hsent
  exact absurd hseen (by decide +kernel)

end Operation

end ToolNodes
