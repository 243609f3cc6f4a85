import ToolNodes.Proofs.Registry.Transaction

/-!
# The last call on a name counts

Of the calls of a run only those that were made have a part in what stands under a name (`made`), and of
these only the last one that adds or removes exactly this name. `Left` says what that leaves, from the
list of calls alone; it composes (`Left.append`), so one call decides the whole run.
-/

namespace ToolNodes.Registry

/-! ## Calls that were made -/

/-- The name that a call adds or removes. -/
def Edit.name? : Edit → Option String
  | add name _ _ => some name
  | remove name => some name
  | use _ => none

/-- The call of an event, if it is one and is made. -/
def madeBy (r : Registry) : Event → List Edit
  | .edit e => if (r.edit e).result.toBool then [e] else []
  | _ => []

/-- The calls of a run that are made, in their order. -/
def made (r : Registry) : List Event → List Edit
  | [] => []
  | event :: rest => r.madeBy event ++ (r.step event).made rest

/-! ## What they leave under a name -/

/-- What a call on a name leaves under it: the node of an addition, with the name, what is kept of the
URL, and the token unless it is blank; nothing after a removal. -/
inductive Puts (name : String) : Edit → Option Node → Prop
  | added {url : String} {token : Option String} {node : Node} (name_eq : node.name = name)
      (url_kept : KeptUrl url.toList node.url.toList)
      (token_eq : node.token = token.filter fun t => !Text.isBlankText t) :
      Puts name (.add name url token) (some node)
  | removed : Puts name (.remove name) none

/-- What some calls leave under a name: what was there before them if none is on the name, else what the
last one on it leaves. -/
inductive Left (name : String) (start : Option Node) (calls : List Edit) : Option Node → Prop
  | untouched (none_on : ∀ e ∈ calls, e.name? ≠ some name) : Left name start calls start
  | last {before later : List Edit} {e : Edit} {entry : Option Node}
      (split : calls = before ++ e :: later) (puts : Puts name e entry)
      (none_later : ∀ e ∈ later, e.name? ≠ some name) : Left name start calls entry

variable {name : String} {start mid entry other : Option Node} {e : Edit} {calls more : List Edit}

theorem Puts.name?_eq (h : Puts name e entry) : e.name? = some name := by
  cases h with
  | added => rfl
  | removed => rfl

theorem puts_normal (name url : String) (token : Option String) :
    Puts name (.add name url token) (some (.normal name url token)) :=
  .added rfl (keptUrl_iff.mpr rfl) rfl

theorem Puts.unique (h : Puts name e entry) (h' : Puts name e other) : entry = other := by
  cases h with
  | removed =>
      cases h'
      rfl
  | added hname hurl htoken =>
      cases h' with
      | added hname' hurl' htoken' =>
          rw [keptUrl_iff] at hurl hurl'
          rw [Option.some.injEq, Node.mk.injEq]
          exact ⟨hname.trans hname'.symm, hurl.trans hurl'.symm, htoken.trans htoken'.symm⟩

/-- **One list of calls after another leaves what the second makes of what the first leaves.** -/
theorem Left.append (h : Left name start calls mid) (h' : Left name mid more entry) :
    Left name start (calls ++ more) entry := by
  cases h' with
  | @last before later e _ hsplit hputs hlater =>
      have happend : calls ++ more = (calls ++ before) ++ e :: later := by
        rw [hsplit, List.append_assoc]
      exact .last happend hputs hlater
  | untouched hmore =>
      cases h with
      | untouched hcalls =>
          refine .untouched ?_
          intro e he
          exact (List.mem_append.mp he).elim (hcalls e) (hmore e)
      | @last before later e _ hsplit hputs hlater =>
          have happend : calls ++ more = before ++ e :: (later ++ more) := by
            rw [hsplit, List.append_assoc]
            rfl
          refine .last happend hputs ?_
          intro e he
          exact (List.mem_append.mp he).elim (hlater e) (hmore e)

/-- Two cuts of a list right at the last call on a name are the same. -/
theorem eq_of_last {before before' later later' : List Edit} {e' : Edit}
    (h : before ++ e :: later = before' ++ e' :: later') (he : e.name? = some name)
    (he' : e'.name? = some name) (hlater : ∀ e ∈ later, e.name? ≠ some name)
    (hlater' : ∀ e ∈ later', e.name? ≠ some name) : e = e' := by
  rcases List.append_eq_append_iff.mp h with ⟨between, -, hrest⟩ | ⟨between, -, hrest⟩
  · cases between with
    | nil => exact (List.cons.inj hrest).1
    | cons c between =>
        have hmem : e' ∈ later := by
          rw [(List.cons.inj hrest).2]
          exact List.mem_append_right _ List.mem_cons_self
        exact absurd he' (hlater e' hmem)
  · cases between with
    | nil => exact (List.cons.inj hrest).1.symm
    | cons c between =>
        have hmem : e ∈ later' := by
          rw [(List.cons.inj hrest).2]
          exact List.mem_append_right _ List.mem_cons_self
        exact absurd he (hlater' e hmem)

/-- The calls determine what they leave. -/
theorem Left.unique (h : Left name start calls entry) (h' : Left name start calls other) :
    entry = other := by
  have hnot : ∀ {before later : List Edit} {e : Edit} {entry : Option Node},
      (∀ e ∈ calls, e.name? ≠ some name) → calls = before ++ e :: later → ¬ Puts name e entry := by
    intro before later e entry hnone hsplit hputs
    refine hnone e ?_ hputs.name?_eq
    rw [hsplit]
    exact List.mem_append_right _ List.mem_cons_self
  cases h with
  | untouched hnone =>
      cases h' with
      | untouched _ => rfl
      | last hsplit' hputs' _ => exact absurd hputs' (hnot hnone hsplit')
  | last hsplit hputs hlater =>
      cases h' with
      | untouched hnone => exact absurd hputs (hnot hnone hsplit)
      | last hsplit' hputs' hlater' =>
          obtain rfl := eq_of_last (hsplit.symm.trans hsplit') hputs.name?_eq hputs'.name?_eq hlater
            hlater'
          exact hputs.unique hputs'

/-! ## What the registry holds -/

variable {r : Registry} {s : State}

theorem get?_next_of_other (h : e.name? ≠ some name) :
    (e.next s).nodes.get? name = s.nodes.get? name := by
  cases e with
  | add added url token =>
      have hne : added ≠ name := fun heq => h (congrArg some heq)
      show (s.nodes.insert added _).get? name = _
      rw [Table.get?_insert, if_neg hne]
  | remove removed =>
      have hne : removed ≠ name := fun heq => h (congrArg some heq)
      show (s.nodes.erase removed).get? name = _
      rw [Table.get?_erase, if_neg hne]
  | use used => rfl

theorem puts_next (h : e.name? = some name) : Puts name e ((e.next s).nodes.get? name) := by
  cases e with
  | add added url token =>
      obtain rfl : added = name := Option.some.inj h
      show Puts added _ ((s.nodes.insert added _).get? added)
      rw [Table.get?_insert, if_pos rfl]
      exact puts_normal added url token
  | remove removed =>
      obtain rfl : removed = name := Option.some.inj h
      show Puts removed _ ((s.nodes.erase removed).get? removed)
      rw [Table.get?_erase, if_pos rfl]
      exact .removed
  | use used => exact absurd h (by simp [Edit.name?])

theorem left_next (name : String) (e : Edit) (s : State) :
    Left name (s.nodes.get? name) [e] ((e.next s).nodes.get? name) := by
  by_cases h : e.name? = some name
  · exact .last (List.nil_append [e]).symm (puts_next h) fun _ hmem => absurd hmem List.not_mem_nil
  · rw [get?_next_of_other h]
    refine .untouched ?_
    intro e' he'
    rw [List.mem_singleton.mp he']
    exact h

/-- An event leaves what its call leaves if that is made, and else everything as it was. -/
theorem left_step (name : String) (r : Registry) (event : Event) :
    Left name (r.get? name) (r.madeBy event) ((r.step event).get? name) := by
  have hnone : Left name (r.get? name) [] (r.get? name) :=
    .untouched fun _ hmem => absurd hmem List.not_mem_nil
  cases event with
  | edit e =>
      show Left name (r.state.nodes.get? name) (if (r.edit e).result.toBool then [e] else [])
        ((r.edit e).registry.state.nodes.get? name)
      cases hresult : (r.edit e).result with
      | ok _ =>
          rw [(took_or_device_of_ok hresult).1]
          exact left_next name e r.state
      | error cause =>
          rw [(unchanged_of_error hresult).1]
          exact hnone
  | ask q => exact hnone
  | disturb d => exact hnone

theorem left_after (name : String) (r : Registry) (events : List Event) :
    Left name (r.get? name) (r.made events) ((r.after events).get? name) := by
  induction events generalizing r with
  | nil => exact .untouched fun _ hmem => absurd hmem List.not_mem_nil
  | cons event events ih => exact (left_step name r event).append (ih (r.step event))

/-- **When a call is made**: its arguments will do, and the save succeeds. -/
theorem made_iff (r : Registry) (e : Edit) :
    (r.edit e).result = .ok () ↔
      e.Acceptable r.state ∧ (r.store.save (e.next r.state)).2 = .ok () := by
  rcases edit_cases r e with ⟨hno, he⟩ | ⟨hyes, store, hsave, he⟩ | ⟨hyes, store, _, hsave, he⟩
  · rw [he]
    constructor
    · intro h
      exact absurd h (by simp)
    · rintro ⟨hyes, -⟩
      exact absurd hyes hno
  · rw [he, hsave]
    exact ⟨fun _ => ⟨hyes, rfl⟩, fun _ => rfl⟩
  · rw [he, hsave]
    constructor
    · intro h
      exact absurd h (by simp)
    · rintro ⟨-, h⟩
      exact absurd h (by simp)

/-- Making a node the active one changes no node, whether it succeeds or not. -/
theorem nodes_use (r : Registry) (name : String) :
    (r.edit (.use name)).registry.state.nodes = r.state.nodes := by
  cases hresult : (r.edit (.use name)).result with
  | ok _ => rw [(took_or_device_of_ok hresult).1, Edit.next]
  | error cause => rw [(unchanged_of_error hresult).1]

/-- **No call is lost, invented or taken for another name.** At the end of every run, from every state
and with any saves failing in between, what stands under a name is what the calls that were made leave
there: what the last one that adds or removes exactly this name puts, and what was there at the start if
there is none. A call is made exactly if its arguments will do and its save succeeds: to add, the name
is not blank and something is kept of the URL; to remove or to make active, the name is registered. To
make a node the active one changes no node. -/
theorem last_call_counts (r : Registry) (events : List Event) :
    let r' := r.after events
    (∀ name entry, Left name (r.get? name) (r.made events) entry ↔ r'.get? name = entry) ∧
    (∀ name url token, (r'.add name url token).result = .ok () ↔
      Text.isBlankText name = false ∧ (∀ kept : String, KeptUrl url.toList kept.toList → kept ≠ "") ∧
        (r'.store.save (afterAdd r'.state name url token)).2 = .ok ()) ∧
    (∀ name, (r'.remove name).result = .ok () ↔
      r'.contains name = true ∧ (r'.store.save (afterRemove r'.state name)).2 = .ok ()) ∧
    (∀ name, (r'.use name).result = .ok () ↔
      r'.contains name = true ∧
        (r'.store.save { r'.state with active := some name }).2 = .ok ()) ∧
    (∀ name, (r'.use name).registry.state.nodes = r'.state.nodes) := by
  intro r'
  refine ⟨?_, ?_, ?_, ?_, nodes_use r'⟩
  · intro name entry
    have hleft := left_after name r events
    constructor
    · intro h
      exact hleft.unique h
    · rintro rfl
      exact hleft
  · intro name url token
    have hempty : (∀ kept : String, KeptUrl url.toList kept.toList → kept ≠ "") ↔
        (normalUrl url).isEmpty = false := by
      simp [keptUrl_iff]
    rw [hempty, ← and_assoc]
    exact made_iff r' (.add name url token)
  · intro name
    exact made_iff r' (.remove name)
  · intro name
    exact made_iff r' (.use name)

end ToolNodes.Registry
