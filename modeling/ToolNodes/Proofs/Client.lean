import ToolNodes.Proofs.Public

/-!
# What is public of calls

A token goes into the authorization of a request, behind `Bearer `, and nowhere else. So calls to nodes
with the same public part have the same result, the same messages and the same trace, and the peer sees
requests that differ behind that word at most.
-/

namespace ToolNodes

/-! ## Requests and peers -/

/-- The value of an authorization without the token of a bearer. -/
def hiddenAuthorization (value : String) : String :=
  if "Bearer ".toList.isPrefixOf value.toList then "Bearer " else value

theorem hiddenAuthorization_bearer (token : String) :
    hiddenAuthorization ("Bearer " ++ token) = "Bearer " := by
  unfold hiddenAuthorization
  rw [if_pos]
  rw [String.toList_append, List.isPrefixOf_iff_prefix]
  exact List.prefix_append _ _

/-- A header field without the token in an authorization. -/
def publicField (field : String × String) : String × String :=
  (field.1, if field.1 = "authorization" then hiddenAuthorization field.2 else field.2)

/-- The request without the tokens in its authorizations. -/
def Request.public (r : Request) : Request := { r with headers := r.headers.map publicField }

def Peer.public (p : Peer) : Peer :=
  { p with seen := p.seen.map Request.public, followed := p.followed.map Request.public }

def Call.public {α : Type} (c : Call α) : Call α := { c with peer := c.peer.public }

theorem Call.public_map {α β : Type} (f : α → β) (c : Call α) :
    (c.map f).public = c.public.map f := rfl

theorem Call.public_after {α : Type} (messages : List Message) (c : Call α) :
    (c.after messages).public = c.public.after messages := rfl

theorem Request.public_without (q : Request) (name : String) :
    (q.without name).public = q.public.without name := by
  unfold Request.public without
  rw [List.filter_map]
  rfl

theorem Request.public_referred (q : Request) (url : Url) :
    (q.referred url).public = q.public.referred url := by
  unfold referred
  rw [show q.public.url = q.url from rfl]
  split
  · rfl
  · rw [← public_without]
    unfold Request.public
    rw [List.map_append]
    rfl

/-- What follows on a redirect shows no more of a token than what it follows on. -/
theorem Request.public_redirected (q : Request) (status : Nat) (url : Url) :
    (q.redirected status url).public = q.public.redirected status url := by
  have hrepeated : (if Reply.repeats status then q
      else { q.without "content-type" with method := .get, body := "" }).public =
        if Reply.repeats status then q.public
        else { q.public.without "content-type" with method := .get, body := "" } := by
    split
    · rfl
    · rw [← public_without]
      rfl
  unfold redirected
  simp only
  rw [← hrepeated, ← public_referred, show q.public.url = q.url from rfl]
  split
  · rfl
  · rw [← public_without]
    rfl

namespace Peer

variable {p p' : Peer} {q q' : Request}

theorem next?_of_public (h : p.public = p'.public) : p.next? = p'.next? := by
  show p.public.next? = p'.public.next?
  rw [h]

theorem rest_of_public (h : p.public = p'.public) : p.rest.public = p'.rest.public := by
  show p.public.rest = p'.public.rest
  rw [h]

theorem public_sees (p : Peer) (q : Request) : (p.sees q).public = p.public.sees q.public := by
  unfold sees Peer.public
  rw [List.map_append]
  rfl

theorem public_follows (p : Peer) (q : Request) :
    (p.follows q).public = p.public.follows q.public := by
  unfold follows Peer.public
  rw [List.map_append]
  rfl

theorem follow_of_public {left : Nat} (hp : p.public = p'.public) (hq : q.public = q'.public)
    (place : Option Url) :
    (follow left p q place).1.public = (follow left p' q' place).1.public ∧
      (follow left p q place).2 = (follow left p' q' place).2 := by
  have hrest := rest_of_public hp
  induction left generalizing p p' q q' place with
  | zero =>
      unfold follow
      rw [next?_of_public hp]
      split
      · exact ⟨hrest, rfl⟩
      · split
        · exact ⟨hrest, rfl⟩
        · exact ⟨hrest, rfl⟩
  | succ left ih =>
      unfold follow
      rw [next?_of_public hp]
      split
      · exact ⟨hrest, rfl⟩
      · rename_i reply _
        split
        · exact ⟨hrest, rfl⟩
        · rename_i url _
          simp only
          split
          · have hnext : (q.redirected reply.status url).public =
                (q'.redirected reply.status url).public := by
              rw [Request.public_redirected, hq, Request.public_redirected]
            have hfollows : (p.rest.follows (q.redirected reply.status url)).public =
                (p'.rest.follows (q'.redirected reply.status url)).public := by
              rw [public_follows, hrest, hnext, public_follows]
            exact ih hfollows hnext _ (rest_of_public hfollows)
          · exact ⟨hrest, rfl⟩

theorem send_of_public (hp : p.public = p'.public) (hq : q.public = q'.public) :
    (p.send q).1.public = (p'.send q').1.public ∧ (p.send q).2 = (p'.send q').2 := by
  have hreachable : p.reachable = p'.reachable := by
    show p.public.reachable = p'.public.reachable
    rw [hp]
  unfold send
  rw [hreachable]
  split
  · exact follow_of_public (by rw [public_sees, hp, hq, public_sees]) hq none
  · exact ⟨hp, rfl⟩

end Peer

namespace Client

variable {node node' : Node} {peer peer' : Peer}

theorem headers_of_public (h : node.public = node'.public) (url : Url) :
    (headers node url).map publicField = (headers node' url).map publicField := by
  have htoken : ∀ token : Option String,
      (token.map fun t => ("authorization", "Bearer " ++ t)).toList.map publicField =
        ((token.map hidden).map fun _ => ("authorization", "Bearer ")).toList := by
    intro token
    cases token with
    | none => rfl
    | some t => exact congrArg (fun value => [("authorization", value)]) (hiddenAuthorization_bearer t)
  have hsame : node.token.map hidden = node'.token.map hidden := congrArg Node.token h
  unfold headers
  simp only [List.map_append]
  rw [htoken, htoken, hsame]

theorem request_of_public (h : node.public = node'.public) (url : Url) (method : Method)
    (body : String) :
    (request node url method body).map Request.public =
      (request node' url method body).map Request.public := by
  have htoken : node.token.map hidden = node'.token.map hidden := congrArg Node.token h
  have hrefused : ∀ token : Option String, (token.any fun t => !fitsHeader t) =
      (token.map hidden).any fun t => !fitsHeader t := by
    intro token
    cases token with
    | none => rfl
    | some t => simp
  unfold request
  cases url.host? with
  | none => rfl
  | some host =>
      simp only
      rw [hrefused node.token, hrefused node'.token, htoken]
      split
      · rfl
      · split
        · rfl
        · simp only [Except.map, Request.public]
          rw [headers_of_public h]

theorem unanswered_of_public (hp : peer.public = peer'.public) (url : String)
    (cause : TransportError) :
    (unanswered url cause peer).public = (unanswered url cause peer').public := by
  unfold Call.public unanswered
  rw [hp]

theorem answeredError_of_public (hp : peer.public = peer'.public) (url place : String)
    (reply : Reply) :
    (answeredError url place reply peer).public = (answeredError url place reply peer').public := by
  unfold Call.public answeredError
  rw [hp]

theorem answered_of_public (hp : peer.public = peer'.public) (url : String) (reply : Reply) :
    (answered url reply peer).public = (answered url reply peer').public := by
  unfold Call.public answered
  simp only
  split
  · rw [hp]
  · split
    · rw [hp]
    · split
      · rw [hp]
      · rw [hp]

/-- **A request shows of a token only that there is one.** -/
theorem send_of_public (h : node.public = node'.public) (hp : peer.public = peer'.public) (url : Url)
    (method : Method) (body : String) :
    (send node url method body peer).public = (send node' url method body peer').public := by
  have hrequest := request_of_public h url method body
  unfold send
  cases hr : request node url method body with
  | error cause =>
      cases hr' : request node' url method body with
      | error cause' =>
          rw [hr, hr'] at hrequest
          cases Except.error.inj hrequest
          exact unanswered_of_public hp _ cause
      | ok request' =>
          rw [hr, hr'] at hrequest
          exact absurd hrequest (by simp [Except.map])
  | ok request =>
      cases hr' : Client.request node' url method body with
      | error cause' =>
          rw [hr, hr'] at hrequest
          exact absurd hrequest (by simp [Except.map])
      | ok request' =>
          rw [hr, hr'] at hrequest
          obtain ⟨hpeers, hdelivery⟩ := Peer.send_of_public hp (Except.ok.inj hrequest)
          simp only
          rw [← hdelivery]
          split
          · exact unanswered_of_public hpeers _ _
          · split
            · exact answeredError_of_public hpeers _ _ _
            · exact answered_of_public hpeers _ _

/-! ## Calls to a node -/

theorem refuse_of_public {α : Type} (hp : peer.public = peer'.public) (e : Error) :
    (Call.refuse peer e : Call α).public = (Call.refuse peer' e : Call α).public := by
  unfold Call.public Call.refuse
  rw [hp]

section

variable [Url.Idna]

theorem endpoint_of_public (h : node.public = node'.public) (added : List String) :
    endpoint node added = endpoint node' added := by
  obtain ⟨name, url, token⟩ := node
  obtain ⟨name', url', token'⟩ := node'
  obtain ⟨rfl, rfl, -⟩ := Node.mk.inj h
  rfl

theorem listToolsAt_of_public (h : node.public = node'.public) (hp : peer.public = peer'.public) :
    (listToolsAt node peer).public = (listToolsAt node' peer').public := by
  have hname : node.name = node'.name := (Node.mk.inj h).1
  unfold listToolsAt
  rw [endpoint_of_public h, hname]
  cases endpoint node' ["tools"] with
  | error e => exact refuse_of_public hp e
  | ok url =>
      simp only
      have hcall := congrArg (Call.map fun payload => payload.elim [] Tool.ofListing)
        (send_of_public h hp url .get "")
      rw [← Call.public_map, ← Call.public_map] at hcall
      generalize (send node url .get "" peer).map _ = call at hcall ⊢
      generalize (send node' url .get "" peer').map _ = call' at hcall ⊢
      obtain ⟨result, messages, trace, p⟩ := call
      obtain ⟨result', messages', trace', p'⟩ := call'
      obtain ⟨rfl, rfl, rfl, hpeers⟩ := Call.mk.inj hcall
      unfold Call.public
      cases result with
      | error e =>
          simp only
          rw [hpeers]
      | ok tools =>
          simp only
          rw [hpeers]

theorem invokeAt_of_public (h : node.public = node'.public) (hp : peer.public = peer'.public)
    (tool : String) (envelope : Envelope) :
    (invokeAt node tool envelope peer).public = (invokeAt node' tool envelope peer').public := by
  have hname : node.name = node'.name := (Node.mk.inj h).1
  unfold invokeAt
  rw [endpoint_of_public h, hname]
  cases checkToolName tool with
  | error e => exact refuse_of_public hp e
  | ok _ =>
      cases endpoint node' ["tools", tool] with
      | error e => exact refuse_of_public hp e
      | ok url =>
          simp only
          rw [Call.public_after, Call.public_map,
            send_of_public h hp url .post envelope.toJson.compact]
          rfl

end

/-! ## Calls by node name -/

variable {r r' : Registry}

theorem resolved_cases (h : r.state.public = r'.state.public) (name : Option String) :
    (∃ e, r.resolve name = .error e ∧ r'.resolve name = .error e) ∨
    (∃ node node', r.resolve name = .ok node ∧ r'.resolve name = .ok node' ∧
      node.public = node'.public) := by
  have hresolve := Registry.resolve_of_public h name
  cases hr : r.resolve name with
  | error e =>
      cases hr' : r'.resolve name with
      | error e' =>
          rw [hr, hr'] at hresolve
          cases Except.error.inj hresolve
          exact Or.inl ⟨e, rfl, rfl⟩
      | ok node' =>
          rw [hr, hr'] at hresolve
          exact absurd hresolve (by simp [Except.map])
  | ok node =>
      cases hr' : r'.resolve name with
      | error e' =>
          rw [hr, hr'] at hresolve
          exact absurd hresolve (by simp [Except.map])
      | ok node' =>
          rw [hr, hr'] at hresolve
          exact Or.inr ⟨node, node', rfl, rfl, Except.ok.inj hresolve⟩

/-- **Asking for tools shows no token.** -/
theorem listTools_of_public [Url.Idna] (h : r.state.public = r'.state.public)
    (hp : peer.public = peer'.public) (name : Option String) :
    (listTools r name peer).public = (listTools r' name peer').public := by
  unfold listTools
  rcases resolved_cases h name with ⟨e, hr, hr'⟩ | ⟨node, node', hr, hr', hnode⟩
  · rw [hr, hr']
    exact refuse_of_public hp e
  · rw [hr, hr']
    exact listToolsAt_of_public hnode hp

/-- **Calling a tool shows no token.** -/
theorem invoke_of_public [Url.Idna] (h : r.state.public = r'.state.public)
    (hp : peer.public = peer'.public) (tool : String) (payload : Json) (name : Option String)
    (context : Option Json) :
    (invoke r tool payload name context peer).public =
      (invoke r' tool payload name context peer').public := by
  unfold invoke
  cases checkToolName tool with
  | error e => exact refuse_of_public hp e
  | ok _ =>
      rcases resolved_cases h name with ⟨e, hr, hr'⟩ | ⟨node, node', hr, hr', hnode⟩
      · rw [hr, hr']
        exact refuse_of_public hp e
      · rw [hr, hr']
        exact invokeAt_of_public hnode hp tool ⟨payload, context⟩

end Client

end ToolNodes
