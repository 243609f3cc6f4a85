import Mathlib.Tactic.ByContra
import ToolNodes.Client
import ToolNodes.Proofs.Url.Host

/-!
# Operations and their requests

Two things are asked of a node: to list its tools, and to call one. Either goes to an endpoint behind the
URL of the node and comes to one attempt there (`performAt_of_endpoint`). No request can be made for one
of the reasons in `Unsendable`; else one is made (`request_of_sendable`), and the attempt ends as the peer
answers it (`send_of_unanswered`, `send_of_reply`).
-/

namespace ToolNodes

/-! ## Operations -/

inductive Operation where
  | listTools
  | invoke (tool : String) (envelope : Envelope)

namespace Operation

def tool? : Operation → Option String
  | listTools => none
  | invoke tool _ => some tool

def segments : Operation → List String
  | listTools => ["tools"]
  | invoke tool _ => ["tools", tool]

def method : Operation → Method
  | listTools => .get
  | invoke _ _ => .post

/-- The body of its request: none, or the input and the context as one compact object. -/
def body : Operation → String
  | listTools => ""
  | invoke _ envelope =>
    "\x7b\"input\":" ++ envelope.input.compact ++
      (match envelope.context with
        | none => ""
        | some context => ",\"context\":" ++ context.compact) ++ "\x7d"

def request (op : Operation) (node : Node) (url : Url) : Request where
  method := op.method
  url := url.bare.withoutFragment
  headers := Client.headers node url
  body := op.body

/-- Carries it out at a node. Of the result only an error is kept. -/
def performAt [Url.Idna] (op : Operation) (node : Node) (peer : Peer) : Call Unit :=
  match op with
  | listTools => (Client.listToolsAt node peer).map fun _ => ()
  | invoke tool envelope => (Client.invokeAt node tool envelope peer).map fun _ => ()

def badTools : List String := ["", ".", ".."]

/-- Whether it calls no tool, or one whose name can travel. -/
def ToolFits (op : Operation) : Prop := ∀ tool, op.tool? = some tool → tool ∉ badTools

theorem toolFits_listTools : listTools.ToolFits := by
  intro tool htool
  exact absurd htool (by simp [tool?])

theorem toolFits_invoke_iff {tool : String} {envelope : Envelope} :
    (invoke tool envelope).ToolFits ↔ tool ∉ badTools := by
  constructor
  · intro h
    exact h tool rfl
  · intro h other hother
    rw [← Option.some.inj hother]
    exact h

/-- The body of a call is the compact form of its envelope. -/
theorem body_invoke (tool : String) (envelope : Envelope) :
    (invoke tool envelope).body = envelope.toJson.compact := by
  obtain ⟨input, context⟩ := envelope
  rw [← String.toList_inj]
  cases context with
  | none => simp [Envelope.toJson, body, Json.compact, Json.compactChars, Json.compactMembers,
      Json.quote, Json.escapeChar]
  | some c => simp [Envelope.toJson, body, Json.compact, Json.compactChars, Json.compactMembers,
      Json.quote, Json.escapeChar]

end Operation

/-! ## Making a request -/

namespace Client

/-- Why no request can be made to a URL with the token of a node. -/
inductive Unsendable (node : Node) (url : Url) : Prop where
  /-- A header cannot hold the token. -/
  | token {token : String} (has : node.token = some token) (unfit : fitsHeader token = false)
  /-- Requests are made for other schemes. -/
  | scheme (other : sendable url.scheme = false)
  /-- The host cannot stand in a request line. -/
  | host {host : List Char} (has : url.host? = some host) (unfit : fitsRequestLine host = false)
  /-- The URL is too long. -/
  | length (long : maxUrl < url.bare.text.length)

/-- A result is a network error for the URL, with that status or without one. -/
def FailsInTransit {α : Type} (result : Except Error α) (url : Url) (status : Option Nat) : Prop :=
  ∃ cause, result = .error (.network url.toString cause) ∧ cause.status? = status

theorem special_of_sendable {scheme : List Char} (h : sendable scheme = true) :
    Url.isSpecial scheme = true ∧ scheme ≠ Url.fileScheme := by
  unfold sendable at h
  rw [Bool.or_eq_true, decide_eq_true_eq, decide_eq_true_eq] at h
  rcases h with rfl | rfl
  · decide
  · decide

variable {node : Node} {url : Url} {peer : Peer}

theorem request_of_unsendable (h : Unsendable node url) (method : Method) (body : String) :
    ∃ cause, request node url method body = .error cause ∧ cause.status? = none := by
  unfold request
  split
  · exact ⟨_, rfl, rfl⟩
  · rename_i host hhost
    split
    · exact ⟨_, rfl, rfl⟩
    · rename_i htoken
      split
      · exact ⟨_, rfl, rfl⟩
      · rename_i hline
        simp only [Bool.or_eq_true, not_or, Bool.not_eq_true, Bool.not_eq_false',
          decide_eq_false_iff_not] at hline
        cases h with
        | token has unfit =>
            rw [has] at htoken
            exact absurd unfit (by simpa using htoken)
        | scheme other =>
            rw [hline.1.1] at other
            exact absurd other (by simp)
        | host has unfit =>
            rw [hhost] at has
            cases has
            rw [hline.1.2] at unfit
            exact absurd unfit (by simp)
        | length long => exact absurd long hline.2

theorem request_of_sendable (h : ¬ Unsendable node url)
    (hhost : sendable url.scheme = true → ∃ host, url.host? = some host) (op : Operation) :
    request node url op.method op.body = .ok (op.request node url) := by
  have hscheme : sendable url.scheme = true := by
    by_contra hother
    exact h (.scheme (by simpa using hother))
  obtain ⟨host, hhost⟩ := hhost hscheme
  have htoken : (node.token.any fun token => !fitsHeader token) = false := by
    cases ht : node.token with
    | none => rfl
    | some token =>
        by_contra hunfit
        exact h (.token ht (by simpa using hunfit))
  have hline : fitsRequestLine host = true := by
    by_contra hunfit
    exact h (.host hhost (by simpa using hunfit))
  have hlength : ¬ maxUrl < url.bare.text.length := fun hlong => h (.length hlong)
  unfold request
  rw [hhost]
  simp only [htoken, hscheme, hline, hlength, Bool.not_true, decide_false, Bool.or_false,
    Bool.false_eq_true, if_false]
  rfl

/-- Who asks: first by the credentials of the URL, then by the token of the node. -/
theorem authorization_of_request (op : Operation) (node : Node) (url : Url) :
    (op.request node url).values "authorization" =
      (url.credentials?.map Url.Credentials.basic).toList ++
        (node.token.map fun token => "Bearer " ++ token).toList := by
  unfold Operation.request headers Request.values
  cases url.credentials? with
  | none =>
      cases node.token with
      | none => simp
      | some token => simp
  | some c =>
      cases node.token with
      | none => simp
      | some token => simp

example :
    let url : Url := ⟨"http".toList, some ⟨"u:p".toList, "h".toList, none⟩, .segments [[]], none, none⟩
    (Operation.listTools.request ⟨"a", "http://u:p@h", some "t"⟩ url).values "authorization" =
      ["Basic dTpw", "Bearer t"] := by
  decide +kernel

/-! ## Redirects -/

/-- **All that taking a reply can do**: it is the last, or a redirect that leads to a request of its own,
with one redirect less left. -/
theorem follow_cases (left : Nat) (p : Peer) (q : Request) (place : Option Url) :
    (Peer.follow left p q place).1 = p.rest ∨
    ∃ less reply url, left = less + 1 ∧ p.next? = some reply ∧ reply.target? = some url ∧
      Peer.follow left p q place =
        Peer.follow less (p.rest.follows (q.redirected reply.status url))
          (q.redirected reply.status url) (some url) := by
  cases hnext : p.next? with
  | none =>
      unfold Peer.follow
      simp [hnext]
  | some reply =>
      cases htarget : reply.target? with
      | none =>
          unfold Peer.follow
          simp [hnext, htarget]
      | some url =>
          cases left with
          | zero =>
              unfold Peer.follow
              simp [hnext, htarget]
          | succ less =>
              by_cases hsendable : sendable url.scheme = true
              · refine Or.inr ⟨less, reply, url, rfl, rfl, htarget, ?_⟩
                conv_lhs => unfold Peer.follow
                simp only [hnext, htarget, hsendable, if_true]
              · unfold Peer.follow
                simp [hnext, htarget, hsendable]

theorem seen_follow (left : Nat) (p : Peer) (q : Request) (place : Option Url) :
    (Peer.follow left p q place).1.seen = p.seen := by
  induction left using Nat.strongRecOn generalizing p q place with
  | ind left ih =>
      rcases follow_cases left p q place with hlast | ⟨less, reply, url, hless, -, -, hfollow⟩
      · rw [hlast]
        rfl
      · rw [hfollow]
        exact ih less (by omega) _ _ _

/-- What follows on a request: no more requests than redirects are left, and none unless the next reply
sends it elsewhere. -/
theorem followed_follow (left : Nat) (p : Peer) (q : Request) (place : Option Url) :
    ∃ further : List Request, further.length ≤ left ∧
      (Peer.follow left p q place).1.followed = p.followed ++ further ∧
      (further ≠ [] → ∃ reply url, p.next? = some reply ∧ reply.target? = some url) := by
  induction left using Nat.strongRecOn generalizing p q place with
  | ind left ih =>
      rcases follow_cases left p q place with
        hlast | ⟨less, reply, url, rfl, hnext, htarget, hfollow⟩
      · rw [hlast]
        exact ⟨[], Nat.zero_le _, (List.append_nil _).symm, fun h => absurd rfl h⟩
      · obtain ⟨further, hlength, hfollowed, -⟩ := ih less (Nat.lt_succ_self less)
          (p.rest.follows (q.redirected reply.status url)) (q.redirected reply.status url) (some url)
        refine ⟨q.redirected reply.status url :: further, Nat.succ_le_succ hlength, ?_,
          fun _ => ⟨reply, url, hnext, htarget⟩⟩
        rw [hfollow, hfollowed]
        exact List.append_assoc _ _ _

/-! ## Sending it -/

variable {method : Method} {body : String} {q : Request} {reply : Reply}

theorem send_of_refused {cause : TransportError} (h : request node url method body = .error cause) :
    send node url method body peer = unanswered url.toString cause peer := by
  unfold send
  rw [h]

/-- An attempt without an answer that counts. -/
theorem send_of_unanswered (h : request node url method body = .ok q)
    (hreply : (peer.send q).2.reply? = none) :
    ∃ cause, cause.status? = none ∧
      send node url method body peer = unanswered url.toString cause (peer.send q).1 := by
  unfold send
  rw [h]
  unfold Delivery.reply? at hreply
  simp only
  cases hending : (peer.send q).2.ending with
  | answer reply =>
      rw [hending] at hreply
      exact absurd hreply (by simp)
  | closed => exact ⟨_, rfl, rfl⟩
  | tooMany => exact ⟨_, rfl, rfl⟩
  | refused url => exact ⟨_, rfl, rfl⟩

/-- An attempt with one. -/
theorem send_of_reply (h : request node url method body = .ok q)
    (hreply : (peer.send q).2.reply? = some reply) :
    ∃ place, send node url method body peer =
      if isErrorStatus reply.status then answeredError url.toString place reply (peer.send q).1
      else answered url.toString reply (peer.send q).1 := by
  unfold send
  rw [h]
  unfold Delivery.reply? at hreply
  simp only
  cases hending : (peer.send q).2.ending with
  | answer other =>
      rw [hending] at hreply
      cases hreply
      exact ⟨_, rfl⟩
  | closed =>
      rw [hending] at hreply
      exact absurd hreply (by simp)
  | tooMany =>
      rw [hending] at hreply
      exact absurd hreply (by simp)
  | refused url =>
      rw [hending] at hreply
      exact absurd hreply (by simp)

theorem peer_answered (url : String) (reply : Reply) (peer : Peer) :
    (answered url reply peer).peer = peer := by
  unfold answered
  split
  · rfl
  · simp only
    split
    · rfl
    · split
      · rfl
      · rfl

theorem peer_send_of_request (h : request node url method body = .ok q) :
    (send node url method body peer).peer = (peer.send q).1 := by
  cases hreply : (peer.send q).2.reply? with
  | none =>
      obtain ⟨cause, -, hsend⟩ := send_of_unanswered h hreply
      rw [hsend]
      rfl
  | some reply =>
      obtain ⟨place, hsend⟩ := send_of_reply h hreply
      rw [hsend]
      split
      · rfl
      · exact peer_answered _ _ _

/-! ## Endpoints -/

variable [Url.Idna]

theorem endpoint_of_extend {base : Url} {added : List String} (h : Url.parse node.url = .ok base)
    (hextend : base.extend? (added.map String.toList) = some url) :
    endpoint node added = .ok url := by
  unfold endpoint
  rw [h]
  simp only
  rw [hextend]

theorem host?_of_endpoint {added : List String} (h : endpoint node added = .ok url)
    (hs : sendable url.scheme = true) : ∃ host, url.host? = some host := by
  unfold endpoint at h
  split at h
  · exact absurd h (by simp)
  · rename_i base hparse
    split at h
    · rename_i target hextend
      cases h
      obtain ⟨hscheme, hhost⟩ := Url.scheme_of_extend hextend
      rw [hscheme] at hs
      obtain ⟨hspecial, hfile⟩ := special_of_sendable hs
      rw [hhost]
      exact Url.host?_of_parse hparse hspecial hfile
    · exact absurd h (by simp)

/-! ## Operations at an endpoint -/

theorem listToolsAt_of_endpoint (hurl : endpoint node ["tools"] = .ok url) (peer : Peer) :
    (listToolsAt node peer).peer = (send node url .get "" peer).peer ∧
      (listToolsAt node peer).result =
        (send node url .get "" peer).result.map fun payload => payload.elim [] Tool.ofListing := by
  unfold listToolsAt
  rw [hurl]
  simp only [Call.map]
  cases (send node url .get "" peer).result with
  | error e => exact ⟨rfl, rfl⟩
  | ok payload => exact ⟨rfl, rfl⟩

theorem invokeAt_of_endpoint {tool : String} (htool : checkToolName tool = .ok ())
    (hurl : endpoint node ["tools", tool] = .ok url) (envelope : Envelope) (peer : Peer) :
    (invokeAt node tool envelope peer).peer =
        (send node url .post (Operation.invoke tool envelope).body peer).peer ∧
      (invokeAt node tool envelope peer).result =
        (send node url .post (Operation.invoke tool envelope).body peer).result.map
          fun payload => payload.getD emptyAnswer := by
  rw [Operation.body_invoke]
  unfold invokeAt
  rw [htool, hurl]
  exact ⟨rfl, rfl⟩

end Client

/-! ## At a node -/

namespace Operation

variable {op : Operation} {node : Node} {url : Url} {peer : Peer}

theorem checkToolName_of_fits {tool : String} (h : tool ∉ badTools) :
    Client.checkToolName tool = .ok () := by
  simp only [badTools, List.mem_cons, List.not_mem_nil, or_false, not_or] at h
  unfold Client.checkToolName
  simp [h]

theorem checkToolName_of_bad {tool : String} (h : tool ∈ badTools) :
    ∃ reason, Client.checkToolName tool = .error (.invalidArgument reason) := by
  simp only [badTools, List.mem_cons, List.not_mem_nil, or_false] at h
  rcases h with rfl | rfl | rfl
  · exact ⟨_, rfl⟩
  · exact ⟨_, rfl⟩
  · exact ⟨_, rfl⟩

theorem map_map_unit {α β : Type} (f : α → β) (result : Except Error α) :
    (result.map f).map (fun _ => ()) = result.map fun _ => () := by
  cases result with
  | error e => rfl
  | ok a => rfl

variable [Url.Idna]

theorem performAt_of_no_endpoint (h : op.ToolFits) {e : Error}
    (hurl : Client.endpoint node op.segments = .error e) :
    op.performAt node peer = .refuse peer e := by
  cases op with
  | listTools =>
      show (Client.listToolsAt node peer).map _ = _
      unfold Client.listToolsAt
      rw [show Client.endpoint node ["tools"] = _ from hurl]
      rfl
  | invoke tool envelope =>
      show (Client.invokeAt node tool envelope peer).map _ = _
      unfold Client.invokeAt
      rw [checkToolName_of_fits (h tool rfl), show Client.endpoint node ["tools", tool] = _ from hurl]
      rfl

/-- At an endpoint an operation ends as its one attempt does. -/
theorem performAt_of_endpoint (h : op.ToolFits) (hurl : Client.endpoint node op.segments = .ok url)
    (peer : Peer) :
    (op.performAt node peer).peer = (Client.send node url op.method op.body peer).peer ∧
      (op.performAt node peer).result =
        (Client.send node url op.method op.body peer).result.map fun _ => () := by
  cases op with
  | listTools =>
      obtain ⟨hpeer, hresult⟩ := Client.listToolsAt_of_endpoint hurl peer
      refine ⟨hpeer, ?_⟩
      show (Client.listToolsAt node peer).result.map _ = _
      rw [hresult]
      exact map_map_unit _ _
  | invoke tool envelope =>
      obtain ⟨hpeer, hresult⟩ :=
        Client.invokeAt_of_endpoint (checkToolName_of_fits (h tool rfl)) hurl envelope peer
      refine ⟨hpeer, ?_⟩
      show (Client.invokeAt node tool envelope peer).result.map _ = _
      rw [hresult]
      exact map_map_unit _ _

theorem performAt_of_unsendable (h : op.ToolFits)
    (hurl : Client.endpoint node op.segments = .ok url) (hun : Client.Unsendable node url) :
    Client.FailsInTransit (op.performAt node peer).result url none ∧
      (op.performAt node peer).peer = peer := by
  obtain ⟨hpeer, hresult⟩ := performAt_of_endpoint h hurl peer
  obtain ⟨cause, hcause, hstatus⟩ := Client.request_of_unsendable hun op.method op.body
  rw [hpeer, hresult, Client.send_of_refused hcause]
  exact ⟨⟨cause, rfl, hstatus⟩, rfl⟩

theorem performAt_of_sendable (h : op.ToolFits)
    (hurl : Client.endpoint node op.segments = .ok url) (hsendable : ¬ Client.Unsendable node url) :
    (op.performAt node peer).peer = (peer.send (op.request node url)).1 := by
  rw [(performAt_of_endpoint h hurl peer).1]
  apply Client.peer_send_of_request
  exact Client.request_of_sendable hsendable (Client.host?_of_endpoint hurl) op

/-- What the peer gets, if anything, is the request of the operation, made with the token of the node to
the endpoint behind its URL. -/
def SendsOnly (op : Operation) (node : Node) (before after : Peer) : Prop :=
  after = before ∨
    ∃ url, Client.endpoint node op.segments = .ok url ∧ after = (before.send (op.request node url)).1

theorem performAt_sends (h : op.ToolFits) (node : Node) (peer : Peer) :
    op.SendsOnly node peer (op.performAt node peer).peer := by
  cases hurl : Client.endpoint node op.segments with
  | error e =>
      rw [performAt_of_no_endpoint h hurl]
      exact Or.inl rfl
  | ok url =>
      by_cases hun : Client.Unsendable node url
      · exact Or.inl (performAt_of_unsendable h hurl hun).2
      · exact Or.inr ⟨url, hurl, performAt_of_sendable h hurl hun⟩

end Operation

end ToolNodes
