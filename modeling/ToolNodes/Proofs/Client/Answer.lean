import ToolNodes.Proofs.Client.Request

/-!
# What becomes of an answer

An answer with an error status is an error with that status. Of any other answer the body counts, and a
body is broken off, or unreadable, or carries something (`Reply.carries_cases`). So a call gives a value
exactly when the body of such an answer carries it (`result_of_call`). Such answers are those with a status
from 200 to 299, but also the stray ones, which tell neither of success nor of an error
(`not_only_successes`).
-/

namespace ToolNodes

/-! ## Answers -/

namespace Reply

/-- Its status says that the request was carried out. -/
def Succeeds (reply : Reply) : Prop := 200 ≤ reply.status ∧ reply.status ≤ 299

/-- Its status says neither that the request was carried out nor that there was an error. -/
def Stray (reply : Reply) : Prop := ¬ reply.Succeeds ∧ isErrorStatus reply.status = false

/-- What a whole body carries: nothing if it is empty, else the value that it is read as. -/
inductive Carries (reply : Reply) : Option Json → Prop where
  | nothing (whole : reply.isWhole = true) (empty : reply.content = []) : Carries reply none
  | value {v : Json} (whole : reply.isWhole = true) (held : reply.content ≠ [])
      (read : Json.ofBytes reply.content = .ok v) : Carries reply (some v)

variable {reply : Reply}

/-- An answer without an error status is one that succeeds, or a stray one. -/
theorem not_error_iff : isErrorStatus reply.status = false ↔ reply.Succeeds ∨ reply.Stray := by
  constructor
  · intro h
    by_cases hs : reply.Succeeds
    · exact Or.inl hs
    · exact Or.inr ⟨hs, h⟩
  · rintro (⟨hlow, hhigh⟩ | ⟨-, h⟩)
    · simp only [isErrorStatus, Bool.and_eq_false_iff, decide_eq_false_iff_not]
      exact Or.inl (by omega)
    · exact h

/-- **A body is broken off, or unreadable, or carries something.** -/
theorem carries_cases (reply : Reply) :
    reply.isWhole = false ∨
    (reply.isWhole = true ∧ reply.content ≠ [] ∧ ∃ e, Json.ofBytes reply.content = .error e) ∨
    ∃ answer, reply.Carries answer := by
  cases hwhole : reply.isWhole with
  | false => exact Or.inl rfl
  | true =>
      by_cases hempty : reply.content = []
      · exact Or.inr (Or.inr ⟨none, .nothing hwhole hempty⟩)
      · cases hread : Json.ofBytes reply.content with
        | error e => exact Or.inr (Or.inl ⟨rfl, hempty, e, rfl⟩)
        | ok v => exact Or.inr (Or.inr ⟨some v, .value hwhole hempty hread⟩)

end Reply

namespace Client

variable {node : Node} {url : Url} {method : Method} {body text : String} {peer : Peer}
  {q : Request} {reply : Reply}

theorem answered_of_broken (h : reply.isWhole = false) :
    (answered text reply peer).result = .error (.network text .bodyBroken) := by
  unfold answered
  rw [h]
  rfl

theorem answered_of_unreadable {e : Json.Error} (hwhole : reply.isWhole = true)
    (hheld : reply.content ≠ []) (hread : Json.ofBytes reply.content = .error e) :
    (answered text reply peer).result = .error (.malformedResponse text e) := by
  unfold answered
  simp [hwhole, hheld, hread]

theorem answered_of_carries {answer : Option Json} (h : reply.Carries answer) :
    (answered text reply peer).result = .ok answer := by
  unfold answered
  cases h with
  | nothing hwhole hempty => simp [hwhole, hempty]
  | value hwhole hheld hread => simp [hwhole, hheld, hread]

theorem answered_ok_iff {answer : Option Json} :
    (answered text reply peer).result = .ok answer ↔ reply.Carries answer := by
  constructor
  · intro h
    rcases reply.carries_cases with hbroken | ⟨hwhole, hheld, e, hread⟩ | ⟨other, hcarries⟩
    · rw [answered_of_broken hbroken] at h
      exact absurd h (by simp)
    · rw [answered_of_unreadable hwhole hheld hread] at h
      exact absurd h (by simp)
    · rw [answered_of_carries hcarries] at h
      rw [← Except.ok.inj h]
      exact hcarries
  · exact answered_of_carries

/-- A sent request gives a body exactly when an answer without an error status carries it. -/
theorem send_ok_iff (h : request node url method body = .ok q) {answer : Option Json} :
    (send node url method body peer).result = .ok answer ↔
      ∃ reply, (peer.send q).2.reply? = some reply ∧ (reply.Succeeds ∨ reply.Stray) ∧
        reply.Carries answer := by
  constructor
  · intro hok
    cases hreply : (peer.send q).2.reply? with
    | none =>
        obtain ⟨cause, -, hsend⟩ := send_of_unanswered h hreply
        rw [hsend] at hok
        exact absurd hok (by simp [unanswered])
    | some reply =>
        obtain ⟨place, hsend⟩ := send_of_reply h hreply
        rw [hsend] at hok
        split at hok
        · exact absurd hok (by simp [answeredError])
        · rename_i hstatus
          exact ⟨reply, rfl, Reply.not_error_iff.1 (by simpa using hstatus), answered_ok_iff.1 hok⟩
  · rintro ⟨reply, hreply, hstatus, hcarries⟩
    obtain ⟨place, hsend⟩ := send_of_reply h hreply
    rw [hsend, Reply.not_error_iff.2 hstatus]
    exact answered_of_carries hcarries

end Client

/-! ## What a call comes to -/

namespace Operation

/-- It fits, and a request for it can be made to the URL and gets the reply, or none: the one that counts,
where redirects are followed. -/
structure Gets [Url.Idna] (op : Operation) (node : Node) (peer : Peer) (url : Url)
    (reply : Option Reply) : Prop where
  fits : op.ToolFits
  endpoint : Client.endpoint node op.segments = .ok url
  sendable : ¬ Client.Unsendable node url
  reply : (peer.send (op.request node url)).2.reply? = reply

/-- A result that is refused without an endpoint, and else is what the attempt there gives, passed on. -/
structure Passes [Url.Idna] {α : Type} (op : Operation) (node : Node) (peer : Peer)
    (f : Option Json → α) (result : Except Error α) : Prop where
  refused : (op.ToolFits → ∀ url, Client.endpoint node op.segments ≠ .ok url) →
    ∃ e, result = .error e
  attempted : op.ToolFits → ∀ url, Client.endpoint node op.segments = .ok url →
    result = (Client.send node url op.method op.body peer).result.map f

section

variable [Url.Idna] {op : Operation} {node : Node} {url : Url} {peer : Peer}

theorem Gets.made {reply : Option Reply} (h : op.Gets node peer url reply) :
    Client.request node url op.method op.body = .ok (op.request node url) :=
  Client.request_of_sendable h.sendable (Client.host?_of_endpoint h.endpoint) op

/-- A result that passes on an attempt is a value exactly when an answer without an error status carries
it. -/
theorem Passes.ok_iff {α : Type} {f : Option Json → α} {result : Except Error α}
    (h : op.Passes node peer f result) {v : α} :
    result = .ok v ↔ ∃ url reply answer, op.Gets node peer url (some reply) ∧
      (reply.Succeeds ∨ reply.Stray) ∧ reply.Carries answer ∧ v = f answer := by
  constructor
  · intro hok
    have hattempt : ∃ url, op.ToolFits ∧ Client.endpoint node op.segments = .ok url := by
      by_contra hno
      obtain ⟨e, he⟩ := h.refused fun hfits url hurl => hno ⟨url, hfits, hurl⟩
      rw [he] at hok
      exact absurd hok (by simp)
    obtain ⟨url, hfits, hurl⟩ := hattempt
    rw [h.attempted hfits url hurl] at hok
    by_cases hun : Client.Unsendable node url
    · obtain ⟨cause, hcause, -⟩ := Client.request_of_unsendable hun op.method op.body
      rw [Client.send_of_refused hcause] at hok
      exact absurd hok (by simp [Client.unanswered, Except.map])
    · have hmade := Client.request_of_sendable hun (Client.host?_of_endpoint hurl) op
      cases hresult : (Client.send node url op.method op.body peer).result with
      | error e =>
          rw [hresult] at hok
          exact absurd hok (by simp [Except.map])
      | ok answer =>
          rw [hresult] at hok
          obtain ⟨reply, hreply, hstatus, hcarries⟩ := (Client.send_ok_iff hmade).1 hresult
          exact ⟨url, reply, answer, ⟨hfits, hurl, hun, hreply⟩, hstatus, hcarries,
            (Except.ok.inj hok).symm⟩
  · rintro ⟨url, reply, answer, hgets, hstatus, hcarries, rfl⟩
    rw [h.attempted hgets.fits url hgets.endpoint,
      (Client.send_ok_iff hgets.made).2 ⟨reply, hgets.reply, hstatus, hcarries⟩]
    rfl

theorem passes_listToolsAt (node : Node) (peer : Peer) :
    listTools.Passes node peer (fun answer => answer.elim [] Tool.ofListing)
      (Client.listToolsAt node peer).result where
  refused := by
    intro hno
    cases hurl : Client.endpoint node ["tools"] with
    | ok url => exact absurd hurl (hno toolFits_listTools url)
    | error e =>
        unfold Client.listToolsAt
        rw [hurl]
        exact ⟨e, rfl⟩
  attempted := by
    intro _ url hurl
    exact (Client.listToolsAt_of_endpoint hurl peer).2

theorem passes_invokeAt (node : Node) (tool : String) (envelope : Envelope) (peer : Peer) :
    (invoke tool envelope).Passes node peer (fun answer => answer.getD Client.emptyAnswer)
      (Client.invokeAt node tool envelope peer).result where
  refused := by
    intro hno
    by_cases hbad : tool ∈ badTools
    · obtain ⟨reason, hreason⟩ := checkToolName_of_bad hbad
      unfold Client.invokeAt
      rw [hreason]
      exact ⟨_, rfl⟩
    · cases hurl : Client.endpoint node ["tools", tool] with
      | ok url => exact absurd hurl (hno (toolFits_invoke_iff.2 hbad) url)
      | error e =>
          unfold Client.invokeAt
          rw [checkToolName_of_fits hbad, hurl]
          exact ⟨e, rfl⟩
  attempted := by
    intro hfits url hurl
    exact (Client.invokeAt_of_endpoint (checkToolName_of_fits (hfits tool rfl)) hurl envelope peer).2

/-! ## What a call fails with -/

theorem Gets.result {reply : Option Reply} (h : op.Gets node peer url reply) :
    (op.performAt node peer).result =
      (Client.send node url op.method op.body peer).result.map fun _ => () :=
  (performAt_of_endpoint h.fits h.endpoint peer).2

theorem fails_unanswered (h : op.Gets node peer url none) :
    Client.FailsInTransit (op.performAt node peer).result url none := by
  obtain ⟨cause, hstatus, hsend⟩ := Client.send_of_unanswered h.made h.reply
  rw [h.result, hsend]
  exact ⟨cause, rfl, hstatus⟩

theorem fails_errorStatus {reply : Reply} (h : op.Gets node peer url (some reply))
    (hstatus : isErrorStatus reply.status = true) :
    Client.FailsInTransit (op.performAt node peer).result url (some reply.status) := by
  obtain ⟨place, hsend⟩ := Client.send_of_reply h.made h.reply
  rw [h.result, hsend, if_pos hstatus]
  exact ⟨_, rfl, rfl⟩

/-- The body of an answer without an error status decides the result. -/
theorem Gets.result_answered {reply : Reply} (h : op.Gets node peer url (some reply))
    (hstatus : reply.Succeeds ∨ reply.Stray) :
    (op.performAt node peer).result =
      (Client.answered url.toString reply (peer.send (op.request node url)).1).result.map
        fun _ => () := by
  obtain ⟨place, hsend⟩ := Client.send_of_reply h.made h.reply
  rw [h.result, hsend, Reply.not_error_iff.2 hstatus]
  rfl

theorem fails_broken {reply : Reply} (h : op.Gets node peer url (some reply))
    (hstatus : reply.Succeeds ∨ reply.Stray) (hbroken : reply.isWhole = false) :
    Client.FailsInTransit (op.performAt node peer).result url none := by
  rw [h.result_answered hstatus, Client.answered_of_broken hbroken]
  exact ⟨_, rfl, rfl⟩

theorem fails_unreadable {reply : Reply} {e : Json.Error} (h : op.Gets node peer url (some reply))
    (hstatus : reply.Succeeds ∨ reply.Stray) (hwhole : reply.isWhole = true)
    (hheld : reply.content ≠ []) (hread : Json.ofBytes reply.content = .error e) :
    (op.performAt node peer).result = .error (.malformedResponse url.toString e) := by
  rw [h.result_answered hstatus, Client.answered_of_unreadable hwhole hheld hread]
  rfl

/-! ## Every call at a node -/

/-- **What a call comes to, by its answer.** A call of a tool gives a value, and a listing its tools,
exactly when a whole answer without an error status arrived whose body is empty or is that value: an
answer that succeeds, or a stray one. A request that cannot be made or is not answered fails in transit
without a status, an answer with an error status with that status, one whose body broke off without one,
and one whose body is not empty and no JSON is malformed. -/
theorem result_of_call (node : Node) (tool : String) (envelope : Envelope) (peer : Peer) :
    (∀ v, (Client.invokeAt node tool envelope peer).result = .ok v ↔
      ∃ url reply answer, (invoke tool envelope).Gets node peer url (some reply) ∧
        (reply.Succeeds ∨ reply.Stray) ∧ reply.Carries answer ∧
          v = answer.getD Client.emptyAnswer) ∧
    (∀ tools, (Client.listToolsAt node peer).result = .ok tools ↔
      ∃ url reply answer, listTools.Gets node peer url (some reply) ∧
        (reply.Succeeds ∨ reply.Stray) ∧ reply.Carries answer ∧
          tools = answer.elim [] Tool.ofListing) ∧
    ∀ (op : Operation) (url : Url),
      (op.ToolFits → Client.endpoint node op.segments = .ok url → Client.Unsendable node url →
        Client.FailsInTransit (op.performAt node peer).result url none) ∧
      (op.Gets node peer url none →
        Client.FailsInTransit (op.performAt node peer).result url none) ∧
      ∀ reply, op.Gets node peer url (some reply) →
        (isErrorStatus reply.status = true →
          Client.FailsInTransit (op.performAt node peer).result url (some reply.status)) ∧
        (reply.Succeeds ∨ reply.Stray →
          (reply.isWhole = false →
            Client.FailsInTransit (op.performAt node peer).result url none) ∧
          ∀ e, reply.isWhole = true → reply.content ≠ [] → Json.ofBytes reply.content = .error e →
            (op.performAt node peer).result = .error (.malformedResponse url.toString e)) := by
  refine ⟨fun v => (passes_invokeAt node tool envelope peer).ok_iff,
    fun tools => (passes_listToolsAt node peer).ok_iff, ?_⟩
  intro op url
  refine ⟨?_, fails_unanswered, ?_⟩
  · intro hfits hurl hun
    exact (performAt_of_unsendable hfits hurl hun).1
  · intro reply hgets
    refine ⟨fails_errorStatus hgets, ?_⟩
    intro hstatus
    refine ⟨fails_broken hgets hstatus, ?_⟩
    intro e hwhole hheld hread
    exact fails_unreadable hgets hstatus hwhole hheld hread

end

/-- An answer that says that nothing was modified, without a body, is taken for a call that succeeded. -/
theorem not_only_successes :
    ¬ ∀ [Url.Idna] (node : Node) (tool : String) (envelope : Envelope) (peer : Peer) (v : Json),
      (Client.invokeAt node tool envelope peer).result = .ok v →
        ∃ url reply, (invoke tool envelope).Gets node peer url (some reply) ∧ reply.Succeeds := by
  intro hall
  let _ : Url.Idna := .ascii
  let node : Node := ⟨"a", "http://a", none⟩
  let unmodified : Reply := { status := 304, body := [], complete := true }
  let peer : Peer := { replies := [some unmodified] }
  have hok : (Client.invokeAt node "t" ⟨.null, none⟩ peer).result.toBool = true := by
    decide +kernel
  cases hresult : (Client.invokeAt node "t" ⟨.null, none⟩ peer).result with
  | error e =>
      rw [hresult] at hok
      exact absurd hok (by simp [Except.toBool])
  | ok v =>
      obtain ⟨url, reply, hgets, -, hhigh⟩ := hall node "t" ⟨.null, none⟩ peer v hresult
      have hreply : some unmodified = some reply := hgets.reply
      rw [← Option.some.inj hreply] at hhigh
      exact absurd hhigh (by decide)

end Operation

end ToolNodes
