import ToolNodes.Proofs.Client.Discipline
import ToolNodes.Proofs.Registry.Invariant

/-!
# Direct calls and the node that they are for

A line typed in offline mode is for the node that it names, or else for that of the mode. The session
looks this name up itself and then hands it to the client, which takes an empty name for no name and goes
to the active node. Only a state file can put a node under the empty name (`nameless_after`). So a direct
call goes to the node that it is for unless that is one without a name while another one is active
(`direct_call_sends`); then it goes to the active one (`not_always_to_target`).
-/

namespace ToolNodes

namespace Registry

/-- Calls on the registry give no node the empty name. -/
theorem nameless_next {s : State} {e : Edit} (h : s.nodes.contains "" = false)
    (he : e.Acceptable s) : (e.next s).nodes.contains "" = false := by
  cases e with
  | add name url token =>
      have hname : name ≠ "" := by
        rintro rfl
        exact absurd he.1 (by decide)
      show (s.nodes.insert name (.normal name url token)).contains "" = false
      rw [Table.contains_insert, h]
      simp [hname]
  | remove name =>
      show (s.nodes.erase name).contains "" = false
      rw [Table.contains_erase, h, Bool.and_false]
  | use name => exact h

theorem nameless_after {r : Registry} (events : List Event) (h : r.contains "" = false) :
    (r.after events).contains "" = false :=
  state_after events h fun _ _ hs he => nameless_next hs he

variable {r : Registry} {target : String} {node : Node}

/-- A registered name is for its own node, if it is not empty or no node with another name is active. -/
theorem only_target (hnode : r.get? target = some node)
    (hhome : target = "" → ∀ active, r.activeName = some active → active = "") {other : Node}
    (hother : r.Targets (some target) other) : other = node := by
  rcases hother with ⟨-, hget⟩ | ⟨hempty, hactive⟩
  · exact Option.some.inj (hget.symm.trans hnode)
  · -- The active node is looked up under its name, which is the empty one here.
    have htarget : target = "" := hempty
    obtain ⟨active, hname, hget⟩ := Option.bind_eq_some_iff.1 hactive
    rw [hhome htarget active hname, ← htarget] at hget
    exact Option.some.inj (hget.symm.trans hnode)

/-- The empty name is for the active node. -/
theorem only_active (hempty : target = "") (hactive : r.activeNode? = some node) {other : Node}
    (hother : r.Targets (some target) other) : other = node := by
  rcases hother with ⟨hne, -⟩ | ⟨-, hfound⟩
  · exact absurd hempty hne
  · exact Option.some.inj (hfound.symm.trans hactive)

end Registry

namespace Session

/-! ## Direct calls -/

/-- The line is a direct call that passes the check of the session: in offline mode it is read as the
call, and the name that it is for, its own or else that of the mode, is registered. -/
structure Calls (s : Session) (line target : String) (call : DirectCall) : Prop where
  mode : ∃ node, s.mode = .offline node ∧ target = call.node.getD node
  read : ∃ text, Line.read line = .plain text ∧ DirectCall.parse text = .ok call
  registered : s.registry.contains target = true

variable {s : Session} {line target : String} {call : DirectCall}

theorem peer_callTurn {α : Type} (s : Session) (c : Call α) (text : α → String)
    (answer : α → List Entry) : (s.callTurn c text answer).peer = c.peer := by
  unfold callTurn
  split
  · rfl
  · rfl

/-- A direct call is handed to the client with its name and some context. -/
theorem turn_of_calls [Url.Idna] (h : s.Calls line target call) (peer : Peer) :
    ∃ context, (s.turn peer line).peer =
      ((Operation.invoke call.tool ⟨call.payload, some context⟩).perform s.registry
        (some target) peer).peer := by
  obtain ⟨node, hmode, rfl⟩ := h.mode
  obtain ⟨text, hread, hparse⟩ := h.read
  refine ⟨History.directContext (s.history ++ [⟨.user, text⟩]), ?_⟩
  unfold turn turnOf directTurn
  rw [hread]
  simp only
  rw [hmode]
  simp only
  rw [hparse]
  simp only
  rw [if_pos h.registered]
  exact peer_callTurn _ _ _ _

/-- What a direct call sends goes to the only node that the client can take its name for. -/
theorem sends_of_calls [Url.Idna] {node : Node} (h : s.Calls line target call)
    (honly : ∀ other, s.registry.Targets (some target) other → other = node) (peer : Peer) :
    ∃ context, (Operation.invoke call.tool ⟨call.payload, some context⟩).SendsOnly node peer
      (s.turn peer line).peer := by
  obtain ⟨context, hturn⟩ := turn_of_calls h peer
  refine ⟨context, ?_⟩
  rw [hturn]
  cases hr : s.registry.resolve (some target) with
  | error e => exact Or.inl (Operation.perform_keeps _ hr peer)
  | ok other =>
      have hother := Registry.targets_of_resolve hr
      rw [← honly other hother]
      exact Operation.perform_sends _ hother peer

/-! ## Every direct call -/

/-- **Direct calls go to the node that they are for**: over every state file and after every run, the
name that a direct call is for is that of one registered node, and what the call sends, if anything, goes
to the endpoint of this node with its token, whichever node is active, if the name is not empty or no
node with another name is active. If it is empty, what is sent goes to the active node. And it is not
empty unless the state file has a node under the empty name. -/
theorem direct_call_sends [Url.Idna] (path : String) (disk : Disk) (start : Peer)
    (moments : List Moment) :
    let opened := (Registry.openStore (.file ⟨path, disk⟩)).1
    let s := (after { registry := opened } start moments).1
    ∀ line target call, s.Calls line target call →
      (opened.contains "" = false → target ≠ "") ∧
      ∃ node, s.registry.get? target = some node ∧ node.name = target ∧
        ∀ peer,
          ((target = "" → ∀ active, s.registry.activeName = some active → active = "") →
            ∃ context, (Operation.invoke call.tool ⟨call.payload, some context⟩).SendsOnly node
              peer (s.turn peer line).peer) ∧
          (target = "" → ∀ active, s.registry.activeNode? = some active →
            ∃ context, (Operation.invoke call.tool ⟨call.payload, some context⟩).SendsOnly active
              peer (s.turn peer line).peer) := by
  intro opened s line target call hcalls
  obtain ⟨events, hevents⟩ := registry_after { registry := opened } start moments
  change s.registry = opened.after events at hevents
  have hsound : s.registry.state.Sound := by
    rw [hevents]
    exact Registry.sound_after events (Store.sound_loadOrEmpty ⟨path, disk⟩)
  obtain ⟨node, hnode⟩ := Table.contains_iff.1 hcalls.registered
  change s.registry.get? target = some node at hnode
  refine ⟨?_, node, hnode, (hsound.nodes target node hnode).name_eq, ?_⟩
  · rintro hnameless rfl
    have hleft := Registry.nameless_after events hnameless
    rw [← hevents, hcalls.registered] at hleft
    exact absurd hleft (by simp)
  · intro peer
    constructor
    · intro hhome
      exact sends_of_calls hcalls (fun _ => Registry.only_target hnode hhome) peer
    · intro hempty active hactive
      exact sends_of_calls hcalls (fun _ => Registry.only_active hempty hactive) peer

/-- A disk with a state file that lists two nodes, one of them under the empty name and active. -/
def namelessDisk : Disk :=
  { entries := [(["nodes.json"], .file (Text.Utf8.encode
    ("\x7b\"active\":\"\",\"nodes\":\x7b\"\":\x7b\"url\":\"http://a\"\x7d," ++
      "\"b\":\x7b\"url\":\"http://b\"\x7d\x7d\x7d")))] }

/-- A tool with an empty object is a direct call for the node of the mode. -/
theorem calls_of_mode (hmode : s.mode = .offline target)
    (hregistered : s.registry.contains target = true) :
    ∃ call, s.Calls "t \x7b\x7d" target call ∧ call.tool = "t" := by
  have hread : Line.read "t \x7b\x7d" = .plain "t \x7b\x7d" := by decide +kernel
  have hparse : (DirectCall.parse "t \x7b\x7d").toOption.map (fun call => (call.node, call.tool)) =
      some (none, "t") := by decide +kernel
  cases hcall : DirectCall.parse "t \x7b\x7d" with
  | error e =>
      rw [hcall] at hparse
      exact absurd hparse (by simp [Except.toOption])
  | ok call =>
      rw [hcall] at hparse
      obtain ⟨hnode, htool⟩ := Prod.mk.inj (Option.some.inj hparse)
      refine ⟨call, ⟨⟨target, hmode, ?_⟩, ⟨_, hread, hcall⟩, hregistered⟩, htool⟩
      rw [hnode]
      rfl

/-- A call for the node that the mode names goes to it, though another node is active. -/
theorem direct_call_sends_to_mode :
    let _ : Url.Idna := .ascii
    let s := (after { registry := (Registry.openStore (.file ⟨"nodes.json", namelessDisk⟩)).1 } {}
      [{ line := "/mode offline b" }]).1
    s.registry.activeName = some "" ∧
      ∃ call, s.Calls "t \x7b\x7d" "b" call ∧ ∃ context,
        (Operation.invoke call.tool ⟨call.payload, some context⟩).SendsOnly ⟨"b", "http://b", none⟩ {}
          (s.turn {} "t \x7b\x7d").peer := by
  intro _ s
  have hrun : s.mode = .offline "b" ∧ s.registry.contains "b" = true ∧
      s.registry.get? "b" = some ⟨"b", "http://b", none⟩ ∧ s.registry.activeName = some "" := by
    decide +kernel
  obtain ⟨hmode, hregistered, hget, hactive⟩ := hrun
  obtain ⟨call, hcalls, -⟩ := calls_of_mode hmode hregistered
  obtain ⟨-, node, hnode, -, hsends⟩ := direct_call_sends "nodes.json" namelessDisk {}
    [{ line := "/mode offline b" }] "t \x7b\x7d" "b" call hcalls
  rw [← Option.some.inj (hnode.symm.trans hget)]
  exact ⟨hactive, call, hcalls, (hsends {}).1 fun hempty => absurd hempty (by decide)⟩

/-- A node under the empty name does not get its calls while another node is active. -/
theorem not_always_to_target :
    ¬ ∀ [Url.Idna] (path : String) (disk : Disk) (start : Peer) (moments : List Moment)
      (line target : String) (call : DirectCall) (node : Node) (peer : Peer),
      let s := (after { registry := (Registry.openStore (.file ⟨path, disk⟩)).1 } start moments).1
      s.Calls line target call → s.registry.get? target = some node →
        ∃ context, (Operation.invoke call.tool ⟨call.payload, some context⟩).SendsOnly node peer
          (s.turn peer line).peer := by
  intro hall
  let _ : Url.Idna := .ascii
  let moments : List Moment := [{ line := "/mode offline" }, { line := "/mcp use b" }]
  let s := (after { registry := (Registry.openStore (.file ⟨"nodes.json", namelessDisk⟩)).1 } {}
    moments).1
  have hrun : s.mode = .offline "" ∧ s.registry.contains "" = true ∧
      s.registry.get? "" = some ⟨"", "http://a", none⟩ ∧
        (s.turn {} "t \x7b\x7d").peer.seen.map (fun q => q.url.toString) = ["http://b/tools/t"] := by
    decide +kernel
  obtain ⟨hmode, hregistered, hget, hseen⟩ := hrun
  obtain ⟨call, hcalls, htool⟩ := calls_of_mode hmode hregistered
  obtain ⟨context, hkept | ⟨url, hurl, hsent⟩⟩ := hall _ _ _ _ _ _ _ _ {} hcalls hget
  · rw [hkept] at hseen
    exact absurd hseen (by decide)
  · have hendpoint : (Client.endpoint ⟨"", "http://a", none⟩ ["tools", "t"]).toOption.map
        (fun url => url.bare.withoutFragment.toString) = some "http://a/tools/t" := by decide +kernel
    change Client.endpoint ⟨"", "http://a", none⟩ ["tools", call.tool] = .ok url at hurl
    rw [htool] at hurl
    rw [hurl] at hendpoint
    rw [hsent] at hseen
    -- The request that is due has the one address, and the one that was sent the other.
    have hdue : url.bare.withoutFragment.toString = "http://a/tools/t" := Option.some.inj hendpoint
    change [url.bare.withoutFragment.toString] = ["http://b/tools/t"] at hseen
    rw [hdue] at hseen
    exact absurd hseen (by decide)

end Session

end ToolNodes
