import ToolNodes.Text.Words
import Mathlib.Data.List.DropRight

/-!
# Trimming

Trimming changes a text exactly when it starts or ends with a blank, and leaves one that does neither.
Cutting other characters off the end afterwards can bring a blank to the end again, so the two do not
commute.
-/

namespace ToolNodes.Text

variable {p : Char → Bool} {s : List Char}

def startsIn (p : Char → Bool) (s : List Char) : Bool := s.head?.any p

def endsIn (p : Char → Bool) (s : List Char) : Bool := s.getLast?.any p

def endsBlank (s : String) : Bool := endsIn isBlank s.toList

theorem endsIn_append {t : List Char} (ht : t ≠ []) (s : List Char) :
    endsIn p (s ++ t) = endsIn p t := by
  unfold endsIn
  rw [List.getLast?_append_of_ne_nil s ht]

/-! ## Cutting the end off -/

theorem dropTail_eq_rdropWhile (p : Char → Bool) (s : List Char) :
    dropTail p s = s.rdropWhile p := rfl

theorem dropTail_isPrefix (p : Char → Bool) (s : List Char) : dropTail p s <+: s :=
  List.rdropWhile_prefix p s

theorem endsIn_dropTail (p : Char → Bool) (s : List Char) : endsIn p (dropTail p s) = false := by
  unfold endsIn
  cases h : (dropTail p s).getLast? with
  | none => rfl
  | some c =>
      have hne : s.rdropWhile p ≠ [] := by
        intro hnil
        rw [dropTail_eq_rdropWhile, hnil] at h
        exact absurd h (by simp)
      have hlast := List.rdropWhile_last_not p s hne
      rw [dropTail_eq_rdropWhile, List.getLast?_eq_some_getLast hne] at h
      cases h
      simpa using hlast

theorem dropTail_append {a b : List Char} (ha : endsIn p a = false) :
    dropTail p (a ++ b) = a ++ dropTail p b := by
  unfold dropTail
  rw [List.reverse_append, List.dropWhile_append]
  split
  · rename_i h
    have ha' : a.reverse.dropWhile p = a.reverse := by
      unfold endsIn at ha
      rw [← List.head?_reverse] at ha
      cases hr : a.reverse with
      | nil => rfl
      | cons c cs =>
          rw [hr] at ha
          exact List.dropWhile_cons_of_neg (by simpa using ha)
    rw [List.isEmpty_iff.mp h, ha', List.reverse_reverse, List.reverse_nil, List.append_nil]
  · rw [List.reverse_append, List.reverse_reverse]

theorem dropTail_eq_self (h : endsIn p s = false) : dropTail p s = s := by
  have happ := dropTail_append (b := []) h
  rw [List.append_nil] at happ
  rw [happ]
  exact List.append_nil s

theorem startsIn_of_isPrefix {q : Char → Bool} {t : List Char} (ht : t <+: s)
    (h : startsIn q s = false) : startsIn q t = false := by
  obtain ⟨rest, rfl⟩ := ht
  unfold startsIn at h ⊢
  cases t with
  | nil => rfl
  | cons c cs => exact h

/-! ## Trimming -/

theorem startsIn_dropWhile (p : Char → Bool) (s : List Char) :
    startsIn p (s.dropWhile p) = false := by
  unfold startsIn
  cases h : (s.dropWhile p).head? with
  | none => rfl
  | some c =>
      have := List.head?_dropWhile_not p s
      rw [h] at this
      simpa using this

theorem dropWhile_eq_self (h : startsIn p s = false) : s.dropWhile p = s := by
  cases s with
  | nil => rfl
  | cons c cs => exact List.dropWhile_cons_of_neg (by simpa [startsIn] using h)

theorem startsIn_trim (s : List Char) : startsIn isBlank (trim s) = false :=
  startsIn_of_isPrefix (dropTail_isPrefix _ _) (startsIn_dropWhile _ _)

theorem trim_eq_dropTail (h : startsIn isBlank s = false) : trim s = dropTail isBlank s := by
  unfold trim
  rw [dropWhile_eq_self h]

theorem trim_eq_self (hs : startsIn isBlank s = false) (he : endsIn isBlank s = false) :
    trim s = s := by
  rw [trim_eq_dropTail hs, dropTail_eq_self he]

/-! ## What is cut off -/

theorem dropTail_of_all (h : ∀ c ∈ s, p c = true) : dropTail p s = [] :=
  List.rdropWhile_eq_nil_iff.mpr h

theorem dropTail_append_of_all {a b : List Char} (ha : endsIn p a = false)
    (hb : ∀ c ∈ b, p c = true) : dropTail p (a ++ b) = a := by
  rw [dropTail_append ha, dropTail_of_all hb, List.append_nil]

/-- What is cut off the end is all in the class. -/
theorem exists_tail (p : Char → Bool) (s : List Char) :
    ∃ tail, s = dropTail p s ++ tail ∧ ∀ c ∈ tail, p c = true :=
  ⟨s.rtakeWhile p, List.rdropWhile_append_rtakeWhile.symm, fun _ hc => List.mem_rtakeWhile_imp hc⟩

theorem endsIn_trim (s : List Char) : endsIn isBlank (trim s) = false := endsIn_dropTail _ _

theorem trim_of_blank (h : ∀ c ∈ s, isBlank c = true) : trim s = [] := by
  unfold trim
  rw [List.dropWhile_eq_nil_iff.mpr h]
  rfl

/-- A text between blanks, itself without a blank at either end, is what trimming leaves. -/
theorem trim_of_parts {lead body trail : List Char} (hlead : ∀ c ∈ lead, isBlank c = true)
    (htrail : ∀ c ∈ trail, isBlank c = true) (hstart : startsIn isBlank body = false)
    (hend : endsIn isBlank body = false) : trim (lead ++ body ++ trail) = body := by
  unfold trim
  rw [List.append_assoc, List.dropWhile_append_of_pos hlead]
  cases body with
  | nil =>
      exact trim_of_blank htrail
  | cons c body =>
      rw [dropWhile_eq_self (by exact hstart), dropTail_append_of_all hend htrail]

theorem parts_of_trim (s : List Char) :
    ∃ lead trail, s = lead ++ trim s ++ trail ∧ (∀ c ∈ lead, isBlank c = true) ∧
      ∀ c ∈ trail, isBlank c = true := by
  obtain ⟨trail, htrail, hblank⟩ := exists_tail isBlank (s.dropWhile isBlank)
  refine ⟨s.takeWhile isBlank, trail, ?_, fun c hc => List.mem_takeWhile_imp hc, hblank⟩
  rw [List.append_assoc]
  unfold trim
  rw [← htrail, List.takeWhile_append_dropWhile]

/-- The blanks around a text are trimmed with its own. -/
theorem trim_between {lead trail : List Char} (hlead : ∀ c ∈ lead, isBlank c = true)
    (htrail : ∀ c ∈ trail, isBlank c = true) (s : List Char) : trim (lead ++ s ++ trail) = trim s := by
  obtain ⟨before, behind, hs, hbefore, hbehind⟩ := parts_of_trim s
  have hsplit : lead ++ s ++ trail = (lead ++ before) ++ trim s ++ (behind ++ trail) := by
    conv_lhs => rw [hs]
    simp only [List.append_assoc]
  rw [hsplit]
  exact trim_of_parts (List.forall_mem_append.mpr ⟨hlead, hbefore⟩)
    (List.forall_mem_append.mpr ⟨hbehind, htrail⟩) (startsIn_trim s) (endsIn_trim s)

theorem trim_dropTail (s : List Char) : trim (dropTail isBlank s) = trim s := by
  obtain ⟨tail, hs, htail⟩ := exists_tail isBlank s
  have h := trim_between (fun _ hc => absurd hc List.not_mem_nil) htail (dropTail isBlank s)
  rw [List.nil_append, ← hs] at h
  exact h.symm

end ToolNodes.Text
