import ToolNodes.Proofs.Client.Answer

/-!
# Failed calls are reported

A call tells the log of its failure by an alarm: one message of level `WARN` or `ERROR` that names the URL.
Every attempt that fails gives it, except where an answer without an error status breaks off in its body:
such a failure comes without any (`reported_iff_not_breaksOff`).
-/

namespace ToolNodes

/-! ## Alarms -/

def Message.isAlarm (m : Message) : Bool := m.level = .warn || m.level = .error

/-- The URL stands in its text. -/
def Message.Names (m : Message) (url : String) : Prop := ∃ front behind, m.text = front ++ url ++ behind

def alarms (messages : List Message) : List Message := messages.filter Message.isAlarm

/-- A failure comes with exactly one alarm, which names the URL, and a success with none. -/
def Reported {α : Type} (url : String) (result : Except Error α) (messages : List Message) : Prop :=
  match result with
  | .ok _ => alarms messages = []
  | .error _ => ∃ alarm, alarms messages = [alarm] ∧ alarm.Names url

variable {α β : Type} {text : String} {result : Except Error α} {messages more : List Message}

/-- What only informs is no alarm. -/
theorem alarms_info_cons (text : String) (messages : List Message) :
    alarms (.info text :: messages) = alarms messages := rfl

theorem alarms_append_info (text : String) (messages : List Message) :
    alarms (messages ++ [.info text]) = alarms messages := by
  unfold alarms
  rw [List.filter_append, List.filter_cons_of_neg (by simp [Message.isAlarm, Message.info]),
    List.filter_nil, List.append_nil]

/-- Of a result it counts only whether it is a failure, and of the messages only the alarms. -/
theorem reported_map_iff (f : α → β) (h : alarms more = alarms messages) :
    Reported text (result.map f) more ↔ Reported text result messages := by
  unfold Reported
  rw [h]
  cases result with
  | ok v => exact Iff.rfl
  | error e => exact Iff.rfl

/-- A failure without an alarm is not reported. -/
theorem not_reported_of_silent {e : Error} (hresult : result = .error e) (h : alarms messages = []) :
    ¬ Reported text result messages := by
  subst hresult
  rintro ⟨alarm, halarm, -⟩
  rw [h] at halarm
  exact absurd halarm (by simp)

/-! ## Attempts -/

/-- It has no error status, and its body is cut short. -/
structure Reply.BreaksOff (reply : Reply) : Prop where
  status : isErrorStatus reply.status = false
  broken : reply.isWhole = false

namespace Client

variable {node : Node} {url : Url} {method : Method} {body : String} {peer : Peer} {q : Request}
  {reply : Reply}

theorem reported_unanswered (cause : TransportError) :
    Reported text (unanswered text cause peer).result (unanswered text cause peer).messages :=
  ⟨_, rfl, "[ToolClient] Request to ", " failed: " ++ cause.message,
    by simp [Message.error, String.append_assoc]⟩

theorem reported_answeredError (place : String) :
    Reported text (answeredError text place reply peer).result
      (answeredError text place reply peer).messages :=
  ⟨_, rfl, "[ToolClient] ", _, by simp only [Message.error, String.append_assoc]; rfl⟩

/-- A whole body is read, or an alarm tells that it is not. -/
theorem reported_answered (hwhole : reply.isWhole = true) :
    Reported text (answered text reply peer).result (answered text reply peer).messages := by
  unfold answered
  rw [hwhole]
  simp only [Bool.not_true, Bool.false_eq_true, if_false]
  split
  · exact rfl
  · split
    · exact rfl
    · exact ⟨_, rfl, "[ToolClient] Non-JSON body from ", "", by simp [Message.warn]⟩

theorem silent_of_broken (hbroken : reply.isWhole = false) :
    (answered text reply peer).messages = [] := by
  unfold answered
  rw [hbroken]
  rfl

/-- **An attempt is reported exactly if its answer does not break off.** -/
theorem send_reported_iff (h : request node url method body = .ok q) :
    Reported url.toString (send node url method body peer).result
        (send node url method body peer).messages ↔
      ∀ reply, (peer.send q).2.reply? = some reply → ¬ reply.BreaksOff := by
  cases hreply : (peer.send q).2.reply? with
  | none =>
      obtain ⟨cause, -, hsend⟩ := send_of_unanswered h hreply
      rw [hsend]
      exact iff_of_true (reported_unanswered _) fun reply hsome => absurd hsome (by simp)
  | some reply =>
      have hall : (∀ r, some reply = some r → ¬ r.BreaksOff) ↔ ¬ reply.BreaksOff := by simp
      obtain ⟨place, hsend⟩ := send_of_reply h hreply
      rw [hsend, hall]
      split
      · rename_i hstatus
        refine iff_of_true (reported_answeredError place) fun hbreaks => ?_
        rw [hbreaks.status] at hstatus
        exact absurd hstatus (by simp)
      · rename_i hstatus
        cases hwhole : reply.isWhole with
        | true =>
            refine iff_of_true (reported_answered hwhole) fun hbreaks => ?_
            rw [hbreaks.broken] at hwhole
            exact absurd hwhole (by simp)
        | false =>
            refine iff_of_false ?_ (not_not.mpr ⟨by simpa using hstatus, hwhole⟩)
            apply not_reported_of_silent (answered_of_broken hwhole)
            rw [silent_of_broken hwhole]
            rfl

end Client

/-! ## Calls -/

namespace Operation

section

variable [Url.Idna] {op : Operation} {node : Node} {url : Url} {peer : Peer}

theorem alarms_performAt (h : op.ToolFits) (hurl : Client.endpoint node op.segments = .ok url) :
    alarms (op.performAt node peer).messages =
      alarms (Client.send node url op.method op.body peer).messages := by
  cases op with
  | listTools =>
      show alarms (Client.listToolsAt node peer).messages = _
      unfold Client.listToolsAt
      rw [show Client.endpoint node ["tools"] = _ from hurl]
      simp only [Call.map]
      split
      · rfl
      · exact alarms_append_info _ _
  | invoke tool envelope =>
      show alarms (Client.invokeAt node tool envelope peer).messages = _
      unfold Client.invokeAt
      rw [checkToolName_of_fits (h tool rfl), show Client.endpoint node ["tools", tool] = _ from hurl,
        body_invoke]
      exact alarms_info_cons _ _

/-- What is not attempted is refused, and the log is left alone. -/
theorem performAt_of_not_attempted (peer : Peer)
    (h : op.ToolFits → ∀ url, Client.endpoint node op.segments ≠ .ok url) :
    ∃ e, op.performAt node peer = .refuse peer e := by
  by_cases hfits : op.ToolFits
  · cases hurl : Client.endpoint node op.segments with
    | ok url => exact absurd hurl (h hfits url)
    | error e => exact ⟨e, performAt_of_no_endpoint hfits hurl⟩
  · cases op with
    | listTools => exact absurd toolFits_listTools hfits
    | invoke tool envelope =>
        rw [toolFits_invoke_iff, not_not] at hfits
        obtain ⟨reason, hreason⟩ := checkToolName_of_bad hfits
        refine ⟨.invalidArgument reason, ?_⟩
        show (Client.invokeAt node tool envelope peer).map _ = _
        unfold Client.invokeAt
        rw [hreason]
        rfl

/-- At an endpoint the alarms are those of the one attempt. -/
theorem reported_of_endpoint (hfits : op.ToolFits)
    (hurl : Client.endpoint node op.segments = .ok url) :
    Reported url.toString (op.performAt node peer).result (op.performAt node peer).messages ↔
      ∀ reply, op.Gets node peer url (some reply) → ¬ reply.BreaksOff := by
  rw [(performAt_of_endpoint hfits hurl peer).2, reported_map_iff _ (alarms_performAt hfits hurl)]
  by_cases hun : Client.Unsendable node url
  · obtain ⟨cause, hcause, -⟩ := Client.request_of_unsendable hun op.method op.body
    rw [Client.send_of_refused hcause]
    exact iff_of_true (Client.reported_unanswered cause) fun reply hgets => absurd hun hgets.sendable
  · rw [Client.send_reported_iff
      (Client.request_of_sendable hun (Client.host?_of_endpoint hurl) op)]
    refine forall_congr' fun reply => imp_congr_left ?_
    exact ⟨fun hreply => ⟨hfits, hurl, hun, hreply⟩, fun hgets => hgets.reply⟩

theorem silent_of_breaksOff {reply : Reply} (hgets : op.Gets node peer url (some reply))
    (hbreaks : reply.BreaksOff) :
    Client.FailsInTransit (op.performAt node peer).result url none ∧
      alarms (op.performAt node peer).messages = [] := by
  refine ⟨fails_broken hgets (Reply.not_error_iff.1 hbreaks.status) hbreaks.broken, ?_⟩
  obtain ⟨place, hsend⟩ := Client.send_of_reply hgets.made hgets.reply
  rw [alarms_performAt hgets.fits hgets.endpoint, hsend, hbreaks.status]
  simp only [Bool.false_eq_true, if_false]
  rw [Client.silent_of_broken hbreaks.broken]
  rfl

theorem silent_of_ok (hok : (op.performAt node peer).result = .ok ()) :
    alarms (op.performAt node peer).messages = [] := by
  by_cases hattempt : op.ToolFits → ∀ url, Client.endpoint node op.segments ≠ .ok url
  · obtain ⟨e, he⟩ := performAt_of_not_attempted peer hattempt
    rw [he] at hok
    exact absurd hok (by simp [Call.refuse])
  · push Not at hattempt
    obtain ⟨hfits, url, hurl⟩ := hattempt
    by_cases hbreaks : ∃ reply, op.Gets node peer url (some reply) ∧ reply.BreaksOff
    · obtain ⟨reply, hgets, hbreaks⟩ := hbreaks
      exact (silent_of_breaksOff hgets hbreaks).2
    · have hreported := (reported_of_endpoint hfits hurl).2 fun reply hgets hb =>
        hbreaks ⟨reply, hgets, hb⟩
      rw [hok] at hreported
      exact hreported

/-- **A call is reported exactly if its answer does not break off.** A failure then comes with exactly one
alarm, which names the URL that was asked, and a success with none: so it is for a request that cannot be
made, one that is not answered, an error status, and a whole body that is no JSON. A body that breaks off
without an error status makes the call fail without an alarm. What is refused before anything is attempted
gives no message at all. -/
theorem reported_iff_not_breaksOff (op : Operation) (node : Node) (peer : Peer) :
    (∀ url, op.ToolFits → Client.endpoint node op.segments = .ok url →
      (Reported url.toString (op.performAt node peer).result (op.performAt node peer).messages ↔
        ∀ reply, op.Gets node peer url (some reply) → ¬ reply.BreaksOff)) ∧
    (∀ url reply, op.Gets node peer url (some reply) → reply.BreaksOff →
      Client.FailsInTransit (op.performAt node peer).result url none ∧
        alarms (op.performAt node peer).messages = []) ∧
    ((op.performAt node peer).result = .ok () → alarms (op.performAt node peer).messages = []) ∧
    ((op.ToolFits → ∀ url, Client.endpoint node op.segments ≠ .ok url) →
      ∃ e, (op.performAt node peer).result = .error e ∧ (op.performAt node peer).messages = []) := by
  refine ⟨fun url hfits hurl => reported_of_endpoint hfits hurl,
    fun url reply hgets hbreaks => silent_of_breaksOff hgets hbreaks, silent_of_ok, ?_⟩
  intro hnot
  obtain ⟨e, he⟩ := performAt_of_not_attempted peer hnot
  rw [he]
  exact ⟨e, rfl, rfl⟩

end

/-- A call whose answer breaks off behind its first byte fails without an alarm. -/
theorem not_always_reported :
    ¬ ∀ [Url.Idna] (op : Operation) (node : Node) (peer : Peer) (url : Url), op.ToolFits →
      Client.endpoint node op.segments = .ok url →
        Reported url.toString (op.performAt node peer).result (op.performAt node peer).messages := by
  intro hall
  let _ : Url.Idna := .ascii
  let op : Operation := invoke "t" ⟨.object [], none⟩
  let node : Node := ⟨"a", "http://a", none⟩
  let peer : Peer := { replies := [some { status := 200, body := [0x7B], complete := false }] }
  have hfits : op.ToolFits := toolFits_invoke_iff.2 (by decide)
  have hsilent : alarms (op.performAt node peer).messages = [] := by decide +kernel
  have hfails : (op.performAt node peer).result.toBool = false := by decide +kernel
  cases hurl : Client.endpoint node op.segments with
  | error e =>
      have hok : (Client.endpoint node op.segments).toBool = true := by decide +kernel
      rw [hurl] at hok
      exact absurd hok (by simp [Except.toBool])
  | ok url =>
      have hreported := hall op node peer url hfits hurl
      cases hresult : (op.performAt node peer).result with
      | ok v =>
          rw [hresult] at hfails
          exact absurd hfails (by simp [Except.toBool])
      | error e => exact not_reported_of_silent hresult hsilent hreported

end Operation

end ToolNodes
