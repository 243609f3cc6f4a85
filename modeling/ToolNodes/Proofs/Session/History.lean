import ToolNodes.Proofs.Session.Direct

/-!
# The history of a session and what calls carry of it

A line that calls a tool is a slash command or a direct call (`Makes`), and both are the same thing with
their own parts: where the call goes, what of the history it carries, and what it adds. `Adds` says what
a line adds to the history; every other line adds nothing. So the history is the additions of the lines
in their order, and each call carries the end of it as it stands when the call is made
(`history_of_run`).
-/

namespace ToolNodes

/-- The end of a history that a call carries: its last six entries, or all of them. -/
structure History.Window (h w : History) : Prop where
  suffix : w <:+ h
  length_eq : w.length = min 6 h.length

namespace History

variable {h w : History}

theorem window_recent (h : History) : h.Window h.recent where
  suffix := List.drop_suffix _ h
  length_eq := by
    unfold recent window
    rw [List.length_drop]
    omega

theorem Window.eq_recent (hw : h.Window w) : w = h.recent := by
  rw [List.suffix_iff_eq_drop.mp hw.suffix, hw.length_eq]
  unfold recent window
  congr 1
  omega

end History

/-- The line break behind a heading stands with the bracket that ends it. -/
theorem bracket_newline (front rest : String) :
    front ++ "]\n" ++ rest = front ++ "]" ++ "\n" ++ rest := by
  have hbreak : ("]\n" : String) = "]" ++ "\n" := rfl
  simp only [hbreak, String.append_assoc]

theorem Line.text_of_plain {line text : String} (h : Line.read line = .plain text) :
    text = Text.trimmed line := by
  unfold Line.read at h
  dsimp only at h
  split at h
  · exact Line.noConfusion h
  · split at h
    · exact Line.noConfusion h
    · split at h
      · exact Line.noConfusion h
      · split at h
        · exact Line.noConfusion h
        · exact (Line.plain.inj h).symm

/-! ## Calls of tools -/

structure ToolCall where
  tool : String
  payload : Json
  /-- The name that the call is for, if it has one. -/
  node : Option String
  context : Json
  /-- What the line adds to the history before the call. -/
  question : History
  /-- What the answer is headed with in the history. -/
  heading : String

namespace ToolCall

def perform [Url.Idna] (c : ToolCall) (r : Registry) (peer : Peer) : Call Json :=
  Client.invoke r c.tool c.payload c.node (some c.context) peer

def answer (c : ToolCall) (result : Json) : Entry :=
  ⟨.assistant, c.heading ++ "\n" ++ result.pretty⟩

def body (c : ToolCall) : String :=
  "\x7b\"input\":" ++ c.payload.compact ++ ",\"context\":" ++ c.context.compact ++ "\x7d"

end ToolCall

namespace Session

/-- **Which lines call a tool**, and what the call carries: the end of the history before the line for a
slash command, and for a direct call the mode and the end of the history with the line itself. -/
inductive Makes (s : Session) (line : String) : ToolCall → Prop
  | slash {tool : String} {payload : Json} {w : History}
      (command : Line.command? line = some (.invoke tool payload)) (window : s.history.Window w) :
      Makes s line
        { tool, payload, node := none
          context := .object [("chat_history", .array (w.map Entry.toJson))]
          question := []
          heading := "[MCP:" ++ tool ++ "]" }
  | direct {target : String} {call : DirectCall} {w : History} (calls : s.Calls line target call)
      (window : History.Window (s.history ++ [⟨.user, Text.trimmed line⟩]) w) :
      Makes s line
        { tool := call.tool, payload := call.payload, node := some target
          context := .object
            [("chat_history", .array (w.map Entry.toJson)), ("mode", .string "offline")]
          question := [⟨.user, Text.trimmed line⟩]
          heading := "[MCP:" ++ call.tool ++ "@" ++ target ++ "]" }

/-- **What a line adds to the history.** -/
inductive Adds [Url.Idna] (s : Session) (peer : Peer) (line : String) : History → Prop
  /-- A call that is answered adds the answer behind what it adds before. -/
  | answered {c : ToolCall} {result : Json} (makes : s.Makes line c)
      (ok : (c.perform s.registry peer).result = .ok result) :
      Adds s peer line (c.question ++ [c.answer result])
  | failed {c : ToolCall} {e : Error} (makes : s.Makes line c)
      (error : (c.perform s.registry peer).result = .error e) : Adds s peer line c.question
  | nothing (none : ∀ c, ¬ s.Makes line c) : Adds s peer line []

variable {s : Session} {peer : Peer} {line : String} {c : ToolCall}

/-! ## Turns of calls -/

/-- What a turn leaves of a call that adds some entries before it and one behind. -/
structure Leaves [Url.Idna] (s : Session) (c : ToolCall) (peer : Peer) (t : Turn) : Prop where
  peer_eq : t.peer = (c.perform s.registry peer).peer
  answered : ∀ result, (c.perform s.registry peer).result = .ok result →
    t.session.history = s.history ++ (c.question ++ [c.answer result])
  failed : ∀ e, (c.perform s.registry peer).result = .error e →
    t.session.history = s.history ++ c.question

/-- The turn of a call is that of a session which has the entries before it already. -/
theorem leaves_callTurn [Url.Idna] {s' : Session} {answer : Json → List Entry}
    (hs : s'.history = s.history ++ c.question) (hanswer : ∀ v, answer v = [c.answer v]) :
    s.Leaves c peer (s'.callTurn (c.perform s.registry peer) Json.pretty answer) where
  peer_eq := peer_callTurn _ _ _ _
  answered := by
    intro result hresult
    unfold callTurn
    rw [hresult]
    show s'.history ++ answer result = _
    rw [hs, hanswer, List.append_assoc]
  failed := by
    intro e he
    unfold callTurn
    rw [he]
    exact hs

/-- The turn of a line that calls a tool is that of its call, in a session which has the entries before
the call already and the same registry and mode. -/
theorem turn_of_makes [Url.Idna] (h : s.Makes line c) (peer : Peer) :
    ∃ (asked : Session) (answer : Json → List Entry),
      asked.registry = s.registry ∧ asked.mode = s.mode ∧
      asked.history = s.history ++ c.question ∧ (∀ v, answer v = [c.answer v]) ∧
      s.turn peer line = asked.callTurn (c.perform s.registry peer) Json.pretty answer := by
  cases h with
  | @slash tool payload w command window =>
      refine ⟨s, fun result => [History.slashAnswer tool result], rfl, rfl,
        (List.append_nil _).symm, ?_, ?_⟩
      · intro result
        exact congrArg (fun text => [Entry.mk .assistant text]) (bracket_newline _ _)
      · rw [turn_of_command s peer command, window.eq_recent]
        rfl
  | @direct target call w calls window =>
      obtain ⟨node, hmode, rfl⟩ := calls.mode
      obtain ⟨text, hread, hparse⟩ := calls.read
      obtain rfl := Line.text_of_plain hread
      refine ⟨{ s with history := s.history ++ [⟨.user, Text.trimmed line⟩] },
        fun result => [History.directAnswer call.tool (call.node.getD node) result], rfl, rfl, rfl,
        ?_, ?_⟩
      · intro result
        exact congrArg (fun text => [Entry.mk .assistant text]) (bracket_newline _ _)
      · rw [window.eq_recent]
        unfold turn turnOf directTurn
        rw [hread]
        simp only
        rw [hmode]
        simp only
        rw [hparse]
        simp only
        rw [if_pos calls.registered]
        rfl

theorem leaves_of_makes [Url.Idna] (h : s.Makes line c) (peer : Peer) :
    s.Leaves c peer (s.turn peer line) := by
  obtain ⟨asked, answer, -, -, hhistory, hanswer, hturn⟩ := turn_of_makes h peer
  rw [hturn]
  exact leaves_callTurn hhistory hanswer

/-! ## Turns of other lines -/

/-- A turn that leaves the history alone, and sends no more than a question for the tools of a node. -/
structure Quiet [Url.Idna] (s : Session) (peer : Peer) (t : Turn) : Prop where
  history : t.session.history = s.history
  peer : t.peer = peer ∨ ∃ node, t.peer = (Operation.listTools.perform s.registry node peer).peer

theorem quiet_changeTurn [Url.Idna] (change : Registry.Change) (mode : Mode) (done : String) :
    s.Quiet peer (s.changeTurn peer change mode done) := by
  unfold changeTurn
  split
  · exact ⟨rfl, Or.inl rfl⟩
  · exact ⟨rfl, Or.inl rfl⟩

theorem quiet_commandTurn [Url.Idna] {command : Command}
    (h : ∀ tool payload, command ≠ .invoke tool payload) :
    s.Quiet peer (s.commandTurn peer command) := by
  cases command with
  | list => exact ⟨rfl, Or.inl rfl⟩
  | add name url token => exact quiet_changeTurn _ _ _
  | use name => exact quiet_changeTurn _ _ _
  | remove name =>
      unfold commandTurn
      simp only
      split
      · exact quiet_changeTurn _ _ _
      · exact quiet_changeTurn _ _ _
  | tools node =>
      refine ⟨?_, Or.inr ⟨node, peer_callTurn _ _ _ _⟩⟩
      unfold commandTurn callTurn
      simp only
      split
      · exact List.append_nil _
      · rfl
  | invoke tool payload => exact absurd rfl (h tool payload)

theorem quiet_modeTurn [Url.Idna] (text : String) : s.Quiet peer (s.modeTurn peer text) := by
  unfold modeTurn
  split
  · exact ⟨rfl, Or.inl rfl⟩
  · split
    · exact ⟨rfl, Or.inl rfl⟩
    · unfold offlineTurn
      split
      · exact ⟨rfl, Or.inl rfl⟩
      · split
        · exact ⟨rfl, Or.inl rfl⟩
        · exact ⟨rfl, Or.inl rfl⟩
    · exact ⟨rfl, Or.inl rfl⟩

theorem makes_of_command {tool : String} {payload : Json}
    (h : Line.command? line = some (.invoke tool payload)) : ∃ c, s.Makes line c :=
  ⟨_, .slash h (History.window_recent s.history)⟩

theorem makes_of_calls {target : String} {call : DirectCall} (h : s.Calls line target call) :
    ∃ c, s.Makes line c :=
  ⟨_, .direct h (History.window_recent _)⟩

theorem quiet_directTurn [Url.Idna] {node text : String} (hmode : s.mode = .offline node)
    (hread : Line.read line = .plain text) (h : ∀ c, ¬ s.Makes line c) :
    s.Quiet peer (s.directTurn peer node text) := by
  unfold directTurn
  split
  · exact ⟨rfl, Or.inl rfl⟩
  · rename_i call hparse
    simp only
    split
    · rename_i hregistered
      have hcalls : s.Calls line (call.node.getD node) call :=
        ⟨⟨node, hmode, rfl⟩, ⟨text, hread, hparse⟩, hregistered⟩
      obtain ⟨c, hc⟩ := makes_of_calls hcalls
      exact absurd hc (h c)
    · exact ⟨rfl, Or.inl rfl⟩

/-- **A line that calls no tool is quiet.** -/
theorem quiet_of_not_makes [Url.Idna] (h : ∀ c, ¬ s.Makes line c) (peer : Peer) :
    s.Quiet peer (s.turn peer line) := by
  unfold turn
  cases hread : Line.read line with
  | blank => exact ⟨rfl, Or.inl rfl⟩
  | slash text =>
      unfold turnOf slashTurn
      simp only
      split
      · rename_i command hparse
        apply quiet_commandTurn
        rintro tool payload rfl
        have hcommand : Line.command? line = some (.invoke tool payload) := by
          unfold Line.command?
          rw [hread]
          simp only
          rw [hparse]
          rfl
        obtain ⟨c, hc⟩ := makes_of_command (s := s) hcommand
        exact h c hc
      · exact ⟨rfl, Or.inl rfl⟩
  | mode text => exact quiet_modeTurn text
  | quit => exact ⟨rfl, Or.inl rfl⟩
  | plain text =>
      unfold turnOf
      simp only
      split
      · exact ⟨rfl, Or.inl rfl⟩
      · rename_i node hmode
        exact quiet_directTurn hmode hread h

/-! ## What a line adds -/

theorem history_of_adds [Url.Idna] {h : History} (hadds : s.Adds peer line h) :
    (s.turn peer line).session.history = s.history ++ h := by
  cases hadds with
  | answered hmakes hok => exact (leaves_of_makes hmakes peer).answered _ hok
  | failed hmakes herror => exact (leaves_of_makes hmakes peer).failed _ herror
  | nothing hnone => rw [(quiet_of_not_makes hnone peer).history, List.append_nil]

theorem exists_adds [Url.Idna] (s : Session) (peer : Peer) (line : String) :
    ∃ h, s.Adds peer line h := by
  by_cases hmakes : ∃ c, s.Makes line c
  · obtain ⟨c, hc⟩ := hmakes
    cases hresult : (c.perform s.registry peer).result with
    | ok result => exact ⟨_, .answered hc hresult⟩
    | error e => exact ⟨_, .failed hc hresult⟩
  · exact ⟨[], .nothing fun c hc => hmakes ⟨c, hc⟩⟩

/-- **What a line adds is what its turn puts behind the history**, and nothing else is. -/
theorem adds_iff [Url.Idna] {h : History} :
    s.Adds peer line h ↔ (s.turn peer line).session.history = s.history ++ h := by
  constructor
  · exact history_of_adds
  · intro hturn
    obtain ⟨added, hadded⟩ := exists_adds s peer line
    rw [history_of_adds hadded] at hturn
    rw [← List.append_cancel_left hturn]
    exact hadded

/-! ## What a line sends -/

theorem sent_of_perform [Url.Idna] (op : Operation) (r : Registry) (name : Option String)
    (peer : Peer) :
    ∃ sent : List Request, (op.perform r name peer).peer.seen = peer.seen ++ sent ∧
      sent.length ≤ 1 ∧ ∀ q ∈ sent, q.method = op.method ∧ q.body = op.body := by
  have hnone : ∃ sent : List Request, peer.seen = peer.seen ++ sent ∧ sent.length ≤ 1 ∧
      ∀ q ∈ sent, q.method = op.method ∧ q.body = op.body :=
    ⟨[], (List.append_nil _).symm, Nat.zero_le 1, fun _ hq => absurd hq List.not_mem_nil⟩
  cases hr : r.resolve name with
  | error e =>
      rw [Operation.perform_keeps op hr]
      exact hnone
  | ok node =>
      rcases Operation.perform_sends op (Registry.targets_of_resolve hr) peer with h | ⟨url, -, h⟩
      · rw [h]
        exact hnone
      · rw [h]
        unfold Peer.send
        split
        · refine ⟨[op.request node url], Client.seen_follow _ _ _ _, Nat.le_refl 1, ?_⟩
          intro q hq
          rw [List.mem_singleton.mp hq]
          exact ⟨rfl, rfl⟩
        · exact hnone

/-- **A line sends one request at most, and a call of a tool only with the context that is due.** -/
theorem sent_of_turn [Url.Idna] (s : Session) (peer : Peer) (line : String) :
    ∃ sent : List Request, (s.turn peer line).peer.seen = peer.seen ++ sent ∧ sent.length ≤ 1 ∧
      ∀ q ∈ sent, q.method = .post → ∃ c, s.Makes line c ∧ q.body = c.body := by
  by_cases hmakes : ∃ c, s.Makes line c
  · obtain ⟨c, hc⟩ := hmakes
    obtain ⟨sent, hseen, hlength, hsent⟩ :=
      sent_of_perform (.invoke c.tool ⟨c.payload, some c.context⟩) s.registry c.node peer
    refine ⟨sent, ?_, hlength, fun q hq _ => ⟨c, hc, ?_⟩⟩
    · rw [(leaves_of_makes hc peer).peer_eq]
      exact hseen
    · rw [(hsent q hq).2]
      unfold ToolCall.body Operation.body
      simp only [String.append_assoc]
  · have hnot : ∀ c, ¬ s.Makes line c := fun c hc => hmakes ⟨c, hc⟩
    rcases (quiet_of_not_makes hnot peer).peer with hpeer | ⟨node, hpeer⟩
    · rw [hpeer]
      exact ⟨[], (List.append_nil _).symm, Nat.zero_le 1, fun _ hq => absurd hq List.not_mem_nil⟩
    · obtain ⟨sent, hseen, hlength, hsent⟩ :=
        sent_of_perform .listTools s.registry node peer
      rw [hpeer]
      refine ⟨sent, hseen, hlength, ?_⟩
      intro q hq hpost
      rw [(hsent q hq).1] at hpost
      exact Method.noConfusion hpost

/-! ## Runs -/

/-- What the moments of a run add, each in its place. -/
theorem exists_additions [Url.Idna] (s : Session) (peer : Peer) (moments : List Moment) :
    ∃ added : List History, added.length = moments.length ∧
      (∀ k ≤ moments.length,
        (s.after peer (moments.take k)).1.history = s.history ++ (added.take k).flatten) ∧
      ∀ k m, moments[k]? = some m →
        ∃ h, added[k]? = some h ∧
          ((s.after peer (moments.take k)).1.disturbed m.disturbances).Adds
            ((s.after peer (moments.take k)).2.scripted m.replies) m.line h := by
  induction moments generalizing s peer with
  | nil =>
      refine ⟨[], rfl, ?_, fun k m hm => absurd hm (by simp)⟩
      intro k _
      rw [List.take_nil, List.take_nil]
      exact (List.append_nil _).symm
  | cons m rest ih =>
      obtain ⟨h, hadds⟩ :=
        exists_adds (s.disturbed m.disturbances) (peer.scripted m.replies) m.line
      obtain ⟨added, hlength, hhistory, hadded⟩ := ih (s.turnAt peer m).session (s.turnAt peer m).peer
      refine ⟨h :: added, by rw [List.length_cons, List.length_cons, hlength], ?_, ?_⟩
      · intro k hk
        cases k with
        | zero => exact (List.append_nil _).symm
        | succ k =>
            rw [List.take_succ_cons, List.take_succ_cons, after,
              hhistory k (Nat.le_of_succ_le_succ hk), List.flatten_cons, ← List.append_assoc]
            congr 1
            exact history_of_adds hadds
      · intro k m' hm'
        cases k with
        | zero =>
            obtain rfl : m = m' := by simpa using hm'
            exact ⟨h, rfl, hadds⟩
        | succ k =>
            rw [List.getElem?_cons_succ] at hm'
            exact hadded k m' hm'

/-- **The history of a session is what its lines have added, in their order**, after every part of every
run of a new session; and of what a line sends, a call of a tool carries as its context the end of the
history that is due: for a slash command that of the history before the line, for a direct call that of
the history with the line itself, which is also all that such a call adds if it fails. -/
theorem history_of_run [Url.Idna] (r : Registry) (start : Peer) (moments : List Moment) :
    let before := fun k => after { registry := r } start (moments.take k)
    ∃ added : List History, added.length = moments.length ∧
      (∀ k ≤ moments.length, (before k).1.history = (added.take k).flatten) ∧
      ∀ k m, moments[k]? = some m →
        let s := (before k).1.disturbed m.disturbances
        let peer := (before k).2.scripted m.replies
        (∀ h, s.Adds peer m.line h ↔ added[k]? = some h) ∧
        ∃ sent : List Request, (s.turn peer m.line).peer.seen = peer.seen ++ sent ∧
          sent.length ≤ 1 ∧
            ∀ q ∈ sent, q.method = .post → ∃ c, s.Makes m.line c ∧ q.body = c.body := by
  intro before
  obtain ⟨added, hlength, hhistory, hadded⟩ := exists_additions { registry := r } start moments
  refine ⟨added, hlength, hhistory, ?_⟩
  intro k m hm s peer
  refine ⟨?_, sent_of_turn s peer m.line⟩
  obtain ⟨h, hk, hadds⟩ := hadded k m hm
  intro h'
  rw [hk, Option.some.injEq]
  constructor
  · intro hadds'
    have hturn := adds_iff.mp hadds
    rw [adds_iff.mp hadds'] at hturn
    exact (List.append_cancel_left hturn).symm
  · rintro rfl
    exact hadds

end Session

end ToolNodes
