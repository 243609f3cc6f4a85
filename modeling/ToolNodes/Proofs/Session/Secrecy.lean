import ToolNodes.Proofs.Client
import ToolNodes.Proofs.Session.AddLine
import ToolNodes.Proofs.Session.Run

/-!
# Sessions keep tokens to themselves

Two sessions whose registries are the same in public, and that read the same lines but for the token
of an `add`, go the same way: what they write, log and remember is the same, and so are their requests
but for what stands behind `Bearer `. Each turn keeps the two alike (`turn_alike`), so every turn of
two runs looks the same from outside.
-/

namespace ToolNodes

/-! ## Lines that are alike -/

/-- Lines that are the same, or the same but for the token of an `add`. -/
inductive LinesAlike : String → String → Prop where
  | same (line : String) : LinesAlike line line
  | token (l : AddLine) {token token' : String} (word : Text.IsWord token.toList)
      (word' : Text.IsWord token'.toList) (sent : sentToken token = true)
      (sent' : sentToken token' = true) : LinesAlike (l.withToken token) (l.withToken token')

/-- Commands that are the same, or the same in public. -/
inductive CommandsAlike : Command → Command → Prop where
  | same (c : Command) : CommandsAlike c c
  | add (name url : String) {token token' : String} (h : hidden token = hidden token') :
      CommandsAlike (.add name url (some token)) (.add name url (some token'))

/-! ## Runs by the line -/

/-- Moments with the same replies and lines that are alike. -/
structure Moment.Alike (m m' : Moment) : Prop where
  replies : m.replies = m'.replies
  line : LinesAlike m.line m'.line

namespace Session

/-- How the save of a line ends, if the line comes to one. -/
def saveOf (s : Session) (line : String) : Option (Except StoreError Unit) :=
  match Line.read line with
  | .slash text =>
    match Command.parse text with
    | .ok command => command.edit?.bind s.registry.saveOf
    | .error _ => none
  | _ => none

def saves [Url.Idna] (s : Session) (peer : Peer) :
    List Moment → List (Option (Except StoreError Unit))
  | [] => []
  | m :: rest =>
    (s.disturbed m.disturbances).saveOf m.line ::
      (s.turnAt peer m).session.saves (s.turnAt peer m).peer rest

end Session

/-! ## What is seen -/

/-- What can be seen of a session after a line: what it wrote, logged and traced, whether it goes on,
its mode and history, and the requests so far without the tokens behind `Bearer `. -/
structure Observation where
  flow : Flow
  out : String
  err : String
  messages : List Message
  trace : List Trace.Entry
  mode : Mode
  history : History
  requests : List Request
  /-- Those that follow on redirects. -/
  followed : List Request

def Turn.observed (t : Turn) : Observation :=
  ⟨t.flow, t.out, t.err, t.messages, t.trace, t.session.mode, t.session.history,
    t.peer.seen.map Request.public, t.peer.followed.map Request.public⟩

/-- Sessions that are the same but for tokens that are sent. -/
structure Session.Alike (s s' : Session) : Prop where
  mode : s.mode = s'.mode
  history : s.history = s'.history
  store : s.registry.store.describe = s'.registry.store.describe
  state : s.registry.state.public = s'.registry.state.public

/-- Turns that look the same and lead to sessions that are alike. -/
structure Turn.Alike (t t' : Turn) : Prop where
  session : t.session.Alike t'.session
  peer : t.peer.public = t'.peer.public
  flow : t.flow = t'.flow
  out : t.out = t'.out
  err : t.err = t'.err
  messages : t.messages = t'.messages
  trace : t.trace = t'.trace

theorem Turn.Alike.observed {t t' : Turn} (h : t.Alike t') : t.observed = t'.observed := by
  obtain ⟨-, -, hseen, hfollowed⟩ := Peer.mk.inj h.peer
  unfold Turn.observed
  rw [h.flow, h.out, h.err, h.messages, h.trace, h.session.mode, h.session.history, hseen, hfollowed]

namespace Session

variable {s s' : Session} {peer peer' : Peer}

/-! ## Turns of calls -/

theorem say_alike (hs : s.Alike s') (hp : peer.public = peer'.public) (out err : String) :
    (s.say peer out err).Alike (s'.say peer' out err) :=
  ⟨hs, hp, rfl, rfl, rfl, rfl, rfl⟩

/-- A call on the registry that is the same in public, and whose save ends in the same way. -/
theorem changeTurn_alike (hs : s.Alike s') (hp : peer.public = peer'.public) {e e' : Registry.Edit}
    (he : e.public = e'.public) (hsave : s.registry.saveOf e = s'.registry.saveOf e') (mode : Mode)
    (done : String) :
    (s.changeTurn peer (s.registry.edit e) mode done).Alike
      (s'.changeTurn peer' (s'.registry.edit e') mode done) := by
  have hrefusal : e.refusal = e'.refusal := by
    rw [← Registry.refusal_public e, he, Registry.refusal_public]
  have hdone : e.done s.registry.state = e'.done s'.registry.state := by
    rw [← Registry.done_public, he, hs.state, Registry.done_public]
  have hnext : (e.next s.registry.state).public = (e'.next s'.registry.state).public := by
    rw [Registry.public_next, he, hs.state, Registry.public_next]
  -- The saves end in the same way, so of the nine pairs of outcomes only three are possible.
  rcases Registry.edit_of_saveOf s.registry e with
    ⟨h, hedit⟩ | ⟨h, store, hstore, hedit⟩ | ⟨cause, h, store, hstore, hedit⟩
  · rcases Registry.edit_of_saveOf s'.registry e' with
      ⟨-, hedit'⟩ | ⟨h', -⟩ | ⟨cause', h', -⟩
    · unfold changeTurn
      rw [hedit, hedit', hrefusal]
      exact ⟨hs, hp, rfl, rfl, rfl, rfl, rfl⟩
    · rw [hsave, h'] at h
      exact absurd h (by simp)
    · rw [hsave, h'] at h
      exact absurd h (by simp)
  · rcases Registry.edit_of_saveOf s'.registry e' with
      ⟨h', -⟩ | ⟨-, store', hstore', hedit'⟩ | ⟨cause', h', -⟩
    · rw [hsave, h'] at h
      exact absurd h (by simp)
    · unfold changeTurn
      rw [hedit, hedit', hdone]
      exact ⟨⟨rfl, hs.history, hstore.trans (hs.store.trans hstore'.symm), hnext⟩, hp, rfl, rfl, rfl,
        rfl, rfl⟩
    · rw [hsave, h'] at h
      exact absurd h (by simp)
  · rcases Registry.edit_of_saveOf s'.registry e' with
      ⟨h', -⟩ | ⟨h', -⟩ | ⟨cause', h', store', hstore', hedit'⟩
    · rw [hsave, h'] at h
      exact absurd h (by simp)
    · rw [hsave, h'] at h
      exact absurd h (by simp)
    · rw [hsave, h'] at h
      cases h
      have hunsaved : Registry.unsaved s.registry.store cause =
          Registry.unsaved s'.registry.store cause := by
        unfold Registry.unsaved
        rw [hs.store]
      unfold changeTurn
      rw [hedit, hedit', hunsaved]
      exact ⟨⟨hs.mode, hs.history, hstore.trans (hs.store.trans hstore'.symm), hs.state⟩, hp, rfl,
        rfl, rfl, rfl, rfl⟩

/-- A call to a node that looks the same. -/
theorem callTurn_alike {α : Type} (hs : s.Alike s') {c c' : Call α} (hc : c.public = c'.public)
    (text : α → String) (answer : α → List Entry) :
    (s.callTurn c text answer).Alike (s'.callTurn c' text answer) := by
  obtain ⟨result, messages, trace, p⟩ := c
  obtain ⟨result', messages', trace', p'⟩ := c'
  obtain ⟨rfl, rfl, rfl, hpeers⟩ := Call.mk.inj hc
  unfold callTurn
  cases result with
  | ok v =>
      have hhistory : s.history ++ answer v = s'.history ++ answer v := by rw [hs.history]
      exact ⟨⟨hs.mode, hhistory, hs.store, hs.state⟩, hpeers, rfl, rfl, rfl, rfl, rfl⟩
  | error e => exact ⟨hs, hpeers, rfl, rfl, rfl, rfl, rfl⟩

/-! ## Turns of lines -/

/-- A listing shows of a token only that there is one. -/
theorem nodes_public (nodes : List Node) (active : Option String) :
    Render.nodes (nodes.map Node.public) active = Render.nodes nodes active := by
  have hline : ∀ node : Node, Render.nodeLine active node.public = Render.nodeLine active node := by
    intro node
    unfold Render.nodeLine Node.hasToken Node.public
    rw [Option.isSome_map]
  unfold Render.nodes
  rw [List.isEmpty_map, List.map_map]
  simp only [Function.comp_def, hline]

theorem commandTurn_alike [Url.Idna] (hs : s.Alike s') (hp : peer.public = peer'.public)
    {c c' : Command} (hc : CommandsAlike c c')
    (hsave : c.edit?.bind s.registry.saveOf = c'.edit?.bind s'.registry.saveOf) :
    (s.commandTurn peer c).Alike (s'.commandTurn peer' c') := by
  cases hc with
  | @add name url token token' h =>
      have he : (Registry.Edit.add name url (some token)).public =
          (Registry.Edit.add name url (some token')).public :=
        congrArg (fun t => Registry.Edit.add name url (some t)) h
      unfold commandTurn
      rw [hs.mode]
      exact changeTurn_alike hs hp he hsave _ _
  | same =>
      cases c with
      | list =>
          unfold commandTurn
          rw [← nodes_public, Registry.list_of_public hs.state, nodes_public,
            Registry.activeName_of_public hs.state]
          exact say_alike hs hp _ _
      | add name url token =>
          unfold commandTurn
          rw [hs.mode]
          exact changeTurn_alike hs hp (e := .add name url token) rfl hsave _ _
      | use name =>
          unfold commandTurn
          rw [hs.mode]
          exact changeTurn_alike hs hp (e := .use name) rfl hsave _ _
      | remove name =>
          unfold commandTurn
          simp only
          rw [hs.mode]
          split
          · exact changeTurn_alike hs hp (e := .remove name) rfl hsave _ _
          · exact changeTurn_alike hs hp (e := .remove name) rfl hsave _ _
      | tools node =>
          exact callTurn_alike hs (Client.listTools_of_public hs.state hp node) _ _
      | invoke tool payload =>
          unfold commandTurn
          rw [hs.history]
          exact callTurn_alike hs (Client.invoke_of_public hs.state hp tool payload none _) _ _

theorem modeTurn_alike (hs : s.Alike s') (hp : peer.public = peer'.public) (text : String) :
    (s.modeTurn peer text).Alike (s'.modeTurn peer' text) := by
  unfold modeTurn
  split
  · unfold modeText
    rw [hs.mode]
    exact say_alike hs hp _ _
  · split
    · exact ⟨⟨rfl, hs.history, hs.store, hs.state⟩, hp, rfl, rfl, rfl, rfl, rfl⟩
    · unfold offlineTurn
      rw [Registry.activeName_of_public hs.state]
      split
      · exact say_alike hs hp _ _
      · rename_i node _
        rw [Registry.contains_of_public hs.state]
        split
        · exact ⟨⟨rfl, hs.history, hs.store, hs.state⟩, hp, rfl, rfl, rfl, rfl, rfl⟩
        · exact say_alike hs hp _ _
    · exact say_alike hs hp _ _

theorem directTurn_alike [Url.Idna] (hs : s.Alike s') (hp : peer.public = peer'.public)
    (node line : String) :
    (s.directTurn peer node line).Alike (s'.directTurn peer' node line) := by
  unfold directTurn
  split
  · exact say_alike hs hp _ _
  · rename_i call _
    simp only
    rw [Registry.contains_of_public hs.state, hs.history]
    split
    · apply callTurn_alike
      · exact ⟨hs.mode, rfl, hs.store, hs.state⟩
      · exact Client.invoke_of_public hs.state hp call.tool call.payload _ _
    · exact say_alike hs hp _ _

/-- A line that is no slash command. -/
theorem turnOf_alike [Url.Idna] (hs : s.Alike s') (hp : peer.public = peer'.public) {line : Line}
    (hline : ∀ text, line ≠ .slash text) :
    (s.turnOf peer line).Alike (s'.turnOf peer' line) := by
  cases line with
  | blank => exact say_alike hs hp _ _
  | slash text => exact absurd rfl (hline text)
  | mode text => exact modeTurn_alike hs hp text
  | quit => exact ⟨hs, hp, rfl, rfl, rfl, rfl, rfl⟩
  | plain text =>
      unfold turnOf
      simp only
      rw [hs.mode]
      split
      · exact say_alike hs hp _ _
      · exact directTurn_alike hs hp _ text

theorem saveOf_eq (s : Session) {line text : String} {c : Command}
    (hread : Line.read line = .slash text) (hparse : Command.parse text = .ok c) :
    s.saveOf line = c.edit?.bind s.registry.saveOf := by
  unfold saveOf
  rw [hread]
  simp only
  rw [hparse]

/-- **A turn keeps sessions alike** when their lines are alike and their saves end in the same way. -/
theorem turn_alike [Url.Idna] (hs : s.Alike s') (hp : peer.public = peer'.public)
    {line line' : String}
    (hline : LinesAlike line line') (hsave : s.saveOf line = s'.saveOf line') :
    (s.turn peer line).Alike (s'.turn peer' line') := by
  cases hline with
  | token l word word' sent sent' =>
      obtain ⟨text, hread, hparse⟩ := l.read_withToken word
      obtain ⟨text', hread', hparse'⟩ := l.read_withToken word'
      rw [saveOf_eq s hread hparse, saveOf_eq s' hread' hparse'] at hsave
      rw [turn_eq_commandTurn s peer hread hparse, turn_eq_commandTurn s' peer' hread' hparse']
      exact commandTurn_alike hs hp (.add _ _ (hidden_eq_iff.mpr (Or.inr ⟨sent, sent'⟩))) hsave
  | same =>
      cases hread : Line.read line with
      | slash text =>
          cases hparse : Command.parse text with
          | ok c =>
              rw [saveOf_eq s hread hparse, saveOf_eq s' hread hparse] at hsave
              rw [turn_eq_commandTurn s peer hread hparse, turn_eq_commandTurn s' peer' hread hparse]
              exact commandTurn_alike hs hp (.same c) hsave
          | error e =>
              unfold turn turnOf slashTurn
              rw [hread]
              simp only
              rw [hparse]
              exact say_alike hs hp _ _
      | _ =>
          unfold turn
          rw [hread]
          exact turnOf_alike hs hp fun text h => Line.noConfusion h

/-! ## Runs -/

theorem describe_disturbed (disturbances : List Store.Disturbance) (store : Store) :
    (disturbances.foldl Store.disturbed store).describe = store.describe := by
  induction disturbances generalizing store with
  | nil => rfl
  | cons d rest ih =>
      rw [List.foldl_cons, ih]
      cases store <;> cases d <;> rfl

theorem disturbed_alike (hs : s.Alike s') (ds ds' : List Store.Disturbance) :
    (s.disturbed ds).Alike (s'.disturbed ds') where
  mode := hs.mode
  history := hs.history
  store := by
    show (ds.foldl Store.disturbed s.registry.store).describe = _
    rw [describe_disturbed, hs.store]
    exact (describe_disturbed ds' s'.registry.store).symm
  state := hs.state

theorem scripted_public (hp : peer.public = peer'.public) (replies : Option (List (Option Reply))) :
    (peer.scripted replies).public = (peer'.scripted replies).public := by
  obtain ⟨reachable, own, seen, followed⟩ := peer
  obtain ⟨reachable', own', seen', followed'⟩ := peer'
  obtain ⟨rfl, rfl, hseen, hfollowed⟩ := Peer.mk.inj hp
  unfold Peer.scripted Peer.public
  rw [hseen, hfollowed]

theorem turnAt_alike [Url.Idna] (hs : s.Alike s') (hp : peer.public = peer'.public) {m m' : Moment}
    (hm : m.Alike m')
    (hsave : (s.disturbed m.disturbances).saveOf m.line =
      (s'.disturbed m'.disturbances).saveOf m'.line) :
    (s.turnAt peer m).Alike (s'.turnAt peer' m') := by
  unfold turnAt
  rw [hm.replies]
  exact turn_alike (disturbed_alike hs _ _) (scripted_public hp _) hm.line hsave

/-- **Tokens do not leak.** Two sessions that are the same but for tokens that are sent, read lines that
are the same but for such tokens behind `add`, get the same replies, and whose saves end in the same
ways, look the same after every line, whatever else becomes of the surroundings of their stores: they
write, log and trace the same, have the same mode and history, and the same requests have been sent, and
have followed on redirects, but for what stands behind `Bearer `. -/
theorem observed_turns [Url.Idna] (hs : s.Alike s') (hp : peer.public = peer'.public)
    {moments moments' : List Moment}
    (hmoments : List.Forall₂ Moment.Alike moments moments')
    (hsaves : s.saves peer moments = s'.saves peer' moments') :
    (s.turns peer moments).map Turn.observed = (s'.turns peer' moments').map Turn.observed := by
  induction hmoments generalizing s s' peer peer' with
  | nil => rfl
  | cons hm hrest ih =>
      unfold saves at hsaves
      obtain ⟨hsave, hsaves⟩ := List.cons.inj hsaves
      have hturn := turnAt_alike hs hp hm hsave
      unfold turns
      rw [List.map_cons, List.map_cons, hturn.observed, ih hturn.session hturn.peer hsaves]

/-- Two sessions with different tokens, to each of which a node with another one is added and asked for
its tools. -/
theorem observed_turns_of_add :
    let _ : Url.Idna := .ascii
    let before (token : String) : Session :=
      { registry := ⟨.memory {}, ⟨some "a", Table.ofList [("a", ⟨"a", "http://a", some token⟩)]⟩⟩ }
    let peer : Peer := { replies := [some { status := 200, body := [], complete := true }] }
    ((before "one").turns peer
        [{ line := "/mcp add b http://b two" }, { line := "/mcp tools b" }]).map Turn.observed =
      ((before "three").turns peer
        [{ line := "/mcp add b http://b four" }, { line := "/mcp tools b" }]).map Turn.observed := by
  intro _ before peer
  have halike : (before "one").Alike (before "three") := ⟨rfl, rfl, rfl, by decide +kernel⟩
  have hname : Text.IsWord "b".toList := Text.isWord_of_all (by decide) (by decide)
  have hurl : Text.IsWord "http://b".toList := Text.isWord_of_all (by decide) (by decide)
  have htwo : Text.IsWord "two".toList := Text.isWord_of_all (by decide) (by decide)
  have hfour : Text.IsWord "four".toList := Text.isWord_of_all (by decide) (by decide)
  have hadd := LinesAlike.token (.plain _ _ hname hurl) htwo hfour (by decide) (by decide)
  rw [AddLine.withToken_plain, AddLine.withToken_plain] at hadd
  have hmoments : List.Forall₂ Moment.Alike
      [{ line := "/mcp add b http://b two" }, { line := "/mcp tools b" }]
      [{ line := "/mcp add b http://b four" }, { line := "/mcp tools b" }] :=
    .cons ⟨rfl, hadd⟩ (.cons ⟨rfl, .same _⟩ .nil)
  exact observed_turns halike rfl hmoments (by decide +kernel)

end Session

end ToolNodes
