import ToolNodes.Proofs.Json.Sorted
import ToolNodes.Tool

/-!
# Which envelopes read back

An envelope without a context leaves the member out, and one with a context has it, also if the context is
null (`get?_toJson`). Reading takes a null for no context, so what is read differs from what was written
exactly for that context (`ofJson?_eq_received`); in every other case the two agree, in whatever order the
members are listed.
-/

namespace ToolNodes.Envelope

/-- The envelope as it is read: a context that is null is none. -/
def received (e : Envelope) : Envelope := { e with context := e.context.bind contextOf }

variable {e : Envelope} {doc : Json}

/-- The members of the document: the input, the context if there is one, and no other. -/
theorem get?_toJson (e : Envelope) (key : String) :
    e.toJson.get? key =
      if key = "input" then some e.input else if key = "context" then e.context else none := by
  obtain ⟨input, context⟩ := e
  show Entries.get? key (("input", input) :: _) = _
  rw [Entries.get?]
  by_cases hinput : key = "input"
  · rw [if_pos hinput.symm, if_pos hinput]
  rw [if_neg fun h => hinput h.symm, if_neg hinput]
  cases context with
  | none =>
      split
      · rfl
      · rfl
  | some c =>
      by_cases hcontext : key = "context"
      · simp [Entries.get?, hcontext]
      · simp [Entries.get?, hcontext, Ne.symm hcontext]

/-- What is read of a document with these members. -/
theorem ofJson?_eq_received (h : ∀ key, doc.get? key = e.toJson.get? key) :
    ofJson? doc = some e.received := by
  have hinput : doc.get? "input" = some e.input := by
    rw [h, get?_toJson, if_pos rfl]
  have hcontext : doc.get? "context" = e.context := by
    rw [h, get?_toJson, if_neg (by decide), if_pos rfl]
  obtain ⟨members, rfl, -⟩ := Json.object_of_get? hinput
  show ((Json.object members).get? "input").map _ = _
  rw [hinput, hcontext]
  rfl

/-- Only a null context is not read back. -/
theorem received_eq_self_iff : e.received = e ↔ e.context ≠ some .null := by
  obtain ⟨input, context⟩ := e
  unfold received
  rw [mk.injEq]
  cases context with
  | none => simp
  | some c =>
      cases c with
      | null => simp [contextOf]
      | bool _ | number _ | string _ | array _ | object _ => simp [contextOf]

/-- **An envelope is read back exactly if its context is not null.** The document has a context exactly if
the envelope has one. From it, and from every document with the same members in another order, reading
makes the envelope again, except that it takes a context that is null for none. -/
theorem read_back_iff (e : Envelope) :
    (∀ c, e.toJson.get? "context" = some c ↔ e.context = some c) ∧
    (ofJson? e.toJson = some e ↔ e.context ≠ some .null) ∧
    ∀ doc : Json, (∀ key, doc.get? key = e.toJson.get? key) → ofJson? doc = some e.received := by
  refine ⟨fun c => ?_, ?_, fun _ => ofJson?_eq_received⟩
  · rw [get?_toJson, if_neg (by decide), if_pos rfl]
  · rw [ofJson?_eq_received fun _ => rfl, Option.some.injEq]
    exact received_eq_self_iff

/-- The members in the order of their keys, as reading a text lists them. -/
theorem read_back_offline :
    let context : Json := .object [("mode", .string "offline")]
    ofJson? (.object [("context", context), ("input", .array [.null])]) =
      some ⟨.array [.null], some context⟩ := by
  intro context
  apply (read_back_iff ⟨.array [.null], some context⟩).2.2
  intro key
  rw [get?_toJson]
  by_cases hinput : key = "input"
  · simp [Json.get?, Entries.get?, hinput]
  · by_cases hcontext : key = "context"
    · simp [Json.get?, Entries.get?, hcontext]
    · simp [Json.get?, Entries.get?, hinput, hcontext, Ne.symm hinput, Ne.symm hcontext]

/-- An envelope with a null for its context has a context that its document keeps and that reading drops. -/
theorem not_always_read_back :
    ¬ ∀ e : Envelope, ofJson? e.toJson = some e ∧
      ((e.toJson.get? "context").isSome = true ↔ e.context.isSome = true) := by
  intro hall
  obtain ⟨hback, -⟩ := hall ⟨.object [], some .null⟩
  have hdropped : (none : Option Json) = some .null :=
    congrArg Envelope.context (Option.some.inj hback)
  exact absurd hdropped (by simp)

end ToolNodes.Envelope
