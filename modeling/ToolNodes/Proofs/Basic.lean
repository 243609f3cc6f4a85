import ToolNodes.Text.Words

/-!
# Steps and pieces

A chain of steps, or a step with its result passed on, succeeds only if every step does. Splitting is that
of the standard library, so its laws hold here: a text without separators is one piece, a piece ends at
the first separator, and pieces that are joined come apart again.
-/

namespace ToolNodes

/-! ## Steps -/

section

variable {ε α β : Type} {x : Except ε α} {b : β}

theorem ok_of_bind {f : α → Except ε β} (h : x >>= f = .ok b) : ∃ a, x = .ok a ∧ f a = .ok b := by
  cases x with
  | error e => cases h
  | ok a => exact ⟨a, rfl, h⟩

theorem ok_of_map {f : α → β} (h : x.map f = .ok b) : ∃ a, x = .ok a ∧ f a = b := by
  cases x with
  | error e => cases h
  | ok a => exact ⟨a, rfl, Except.ok.inj h⟩

end

/-! ## Splitting -/

namespace Text

variable {α : Type} {p : α → Bool} {piece s front : List α} {c : α}

theorem splitOn_eq_splitOnP (p : α → Bool) (s : List α) : splitOn p s = s.splitOnP p := by
  induction s with
  | nil => rfl
  | cons c s ih =>
      rw [splitOn, List.splitOnP_cons_eq_if_modifyHead, ih]
      split
      · rfl
      · cases hs : s.splitOnP p with
        | nil => exact absurd hs (List.splitOnP_ne_nil p s)
        | cons piece pieces => rfl

theorem splitOn_ne_nil (p : α → Bool) (s : List α) : splitOn p s ≠ [] := by
  rw [splitOn_eq_splitOnP]
  exact List.splitOnP_ne_nil p s

/-- A text without separators is its only piece. -/
theorem splitOn_of_none (h : ∀ c ∈ s, p c = false) : splitOn p s = [s] := by
  rw [splitOn_eq_splitOnP]
  exact List.splitOnP_eq_singleton h

/-- The first piece ends at the first separator. -/
theorem splitOn_append_cons (h : ∀ c ∈ front, p c = false) (hc : p c = true) (s : List α) :
    splitOn p (front ++ c :: s) = front :: splitOn p s := by
  rw [splitOn_eq_splitOnP, splitOn_eq_splitOnP]
  exact List.splitOnP_append_cons_of_forall_mem h c hc s

/-- A text comes apart at a separator, wherever it stands. -/
theorem splitOn_append_separator (hc : p c = true) (s t : List α) :
    splitOn p (s ++ c :: t) = splitOn p s ++ splitOn p t := by
  rw [splitOn_eq_splitOnP, splitOn_eq_splitOnP, splitOn_eq_splitOnP]
  exact List.splitOnP_append_cons s t hc

/-- Pieces come apart again when they are joined by what separates them. -/
theorem splitOn_intercalate [DecidableEq α] {pieces : List (List α)} (x : α)
    (h : ∀ piece ∈ pieces, x ∉ piece) (hne : pieces ≠ []) :
    splitOn (· = x) ([x].intercalate pieces) = pieces := by
  rw [splitOn_eq_splitOnP]
  exact List.splitOn_intercalate x h hne

theorem intercalate_splitOn [DecidableEq α] (x : α) (s : List α) :
    [x].intercalate (splitOn (· = x) s) = s := by
  rw [splitOn_eq_splitOnP]
  exact List.intercalate_splitOn x

/-- No piece has a separator. -/
theorem none_of_mem_splitOn (hpiece : piece ∈ splitOn p s) (hc : c ∈ piece) : p c = false := by
  induction s generalizing piece with
  | nil =>
      rw [List.mem_singleton.mp hpiece] at hc
      exact absurd hc List.not_mem_nil
  | cons d s ih =>
      rw [splitOn_eq_splitOnP, List.splitOnP_cons_eq_if_modifyHead, ← splitOn_eq_splitOnP] at hpiece
      split at hpiece
      · rcases List.mem_cons.mp hpiece with rfl | hpiece
        · exact absurd hc List.not_mem_nil
        · exact ih hpiece hc
      · rename_i hd
        cases hs : splitOn p s with
        | nil => exact absurd hs (splitOn_ne_nil p s)
        | cons first pieces =>
            rw [hs, List.modifyHead_cons] at hpiece
            rw [hs] at ih
            rcases List.mem_cons.mp hpiece with rfl | hpiece
            · -- The new character goes in front of the first piece.
              rcases List.mem_cons.mp hc with rfl | hc
              · simpa using hd
              · exact ih List.mem_cons_self hc
            · exact ih (List.mem_cons_of_mem _ hpiece) hc

end Text

end ToolNodes
