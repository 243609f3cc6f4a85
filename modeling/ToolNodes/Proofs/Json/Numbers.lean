import Mathlib.Data.List.TakeWhile
import ToolNodes.Json.Reader

/-!
# Numbers end where they end

Reading a number takes digits, a fraction and an exponent from the front of a text, and what stands behind
them counts for one thing only: whether it goes on with the number. So a number that has been read is read
again, with the same value, before any text that does not (`Number.exists_read`).
-/

namespace ToolNodes.Json

open ToolNodes.Text

def IsDigit (piece : Piece) : Prop := (Number.digit? piece).isSome = true

/-- The piece can go on with a number behind a digit. -/
def GoesOn (piece : Piece) : Prop :=
  IsDigit piece ∨ piece = .scalar '.' ∨ piece = .scalar 'e' ∨ piece = .scalar 'E'

def Numeric (piece : Piece) : Prop := GoesOn piece ∨ piece = .scalar '+' ∨ piece = .scalar '-'

instance (piece : Piece) : Decidable (IsDigit piece) := inferInstanceAs (Decidable (_ = true))

instance (piece : Piece) : Decidable (GoesOn piece) := inferInstanceAs (Decidable (_ ∨ _ ∨ _ ∨ _))

instance (piece : Piece) : Decidable (Numeric piece) := inferInstanceAs (Decidable (_ ∨ _ ∨ _))

def NoDigit (rest : List Piece) : Prop := ∀ piece, rest.head? = some piece → ¬ IsDigit piece

def Stops (rest : List Piece) : Prop := ∀ piece, rest.head? = some piece → ¬ GoesOn piece

theorem stops_nil : Stops [] := fun _ h => absurd h (by simp)

theorem Stops.noDigit {rest : List Piece} (h : Stops rest) : NoDigit rest :=
  fun piece hpiece hdigit => h piece hpiece (Or.inl hdigit)

namespace Number

/-- From the front of a text a number is taken that is read, with the same value, before anything that does
not go on with it. -/
def Takes (read : List Piece → Reading Number) (s : List Piece) (n : Number) (rest : List Piece) :
    Prop :=
  ∃ text, s = text ++ rest ∧ (∀ piece ∈ text, Numeric piece) ∧
    ∀ rest', Stops rest' → read (text ++ rest') = .ok (n, rest')

variable {s front rest : List Piece} {negative down : Bool} {significand dropped : Nat} {power : Int}
  {n : Number}

/-! ## Digits -/

theorem not_isDigit_of_scalar {c : Char} (h : c.isDigit = false) : ¬ IsDigit (.scalar c) := by
  simp [IsDigit, digit?, h]

theorem exists_digits (s : List Piece) :
    ∃ front rest, s = front ++ rest ∧ (∀ piece ∈ front, IsDigit piece) ∧ NoDigit rest := by
  let p : Piece → Bool := fun piece => (digit? piece).isSome
  refine ⟨s.takeWhile p, s.dropWhile p, List.takeWhile_append_dropWhile.symm, ?_, ?_⟩
  · intro piece hpiece
    have hp : p piece = true := List.mem_takeWhile_imp hpiece
    exact hp
  · intro piece hpiece hdigit
    have hnot := List.head?_dropWhile_not p s
    rw [hpiece] at hnot
    unfold IsDigit at hdigit
    exact absurd hdigit (by simpa [p] using hnot)

theorem digits_append (hfront : ∀ piece ∈ front, IsDigit piece) (hrest : NoDigit rest) :
    digits (front ++ rest) = (front.filterMap digit?, rest) := by
  induction front with
  | nil =>
      cases rest with
      | nil => rfl
      | cons piece rest =>
          have hnone : digit? piece = none := by simpa [IsDigit] using hrest piece rfl
          rw [List.nil_append, digits, hnone]
          rfl
  | cons piece front ih =>
      obtain ⟨d, hd⟩ := Option.isSome_iff_exists.mp (hfront piece List.mem_cons_self)
      rw [List.cons_append, digits, hd, ih fun q hq => hfront q (List.mem_cons_of_mem _ hq),
        List.filterMap_cons_some hd]

theorem numeric_of_digits (hfront : ∀ piece ∈ front, IsDigit piece) : ∀ piece ∈ front, Numeric piece :=
  fun piece hpiece => Or.inl (Or.inl (hfront piece hpiece))

/-! ## Exponents -/

theorem scaledReading_eq_ok (h : scaledReading negative significand power s = .ok (n, rest)) :
    rest = s ∧ ∀ rest', scaledReading negative significand power rest' = .ok (n, rest') := by
  unfold scaledReading at h ⊢
  cases hx : scaled significand power with
  | none =>
      rw [hx] at h
      exact absurd h (by simp [failAt])
  | some x =>
      rw [hx] at h
      obtain ⟨rfl, rfl⟩ := Prod.mk.inj (Except.ok.inj h)
      exact ⟨rfl, fun _ => rfl⟩

/-- The sign of an exponent is the same before any digit. -/
theorem exists_exponentSign (s : List Piece) :
    ∃ sign, s = sign ++ (exponentSign s).2 ∧ (∀ piece ∈ sign, Numeric piece) ∧
      ∀ piece rest, IsDigit piece →
        exponentSign (sign ++ piece :: rest) = ((exponentSign s).1, piece :: rest) := by
  unfold exponentSign
  split
  · exact ⟨[.scalar '+'], rfl, List.forall_mem_singleton.mpr (Or.inr (Or.inl rfl)), fun _ _ _ => rfl⟩
  · exact ⟨[.scalar '-'], rfl, List.forall_mem_singleton.mpr (Or.inr (Or.inr rfl)), fun _ _ _ => rfl⟩
  · refine ⟨[], rfl, fun _ h => absurd h List.not_mem_nil, ?_⟩
    intro piece rest hdigit
    rw [List.nil_append]
    split
    · exact absurd hdigit (by simp [IsDigit, digit?, List.cons.inj ‹_›])
    · exact absurd hdigit (by simp [IsDigit, digit?, List.cons.inj ‹_›])
    · rfl

/-- What the digits of an exponent come to, at the start of `s` and with `rest` behind them. -/
def exponentOf (negative : Bool) (significand : Nat) (power : Int) (down : Bool) (ds : List Nat)
    (s rest : List Piece) : Reading Number :=
  match exponentValue 0 0 ds with
  | .inl e => scaledReading negative significand (if down then power - e else power + e) rest
  | .inr read =>
    if significand ≠ 0 && !down then failAt .numberOutOfRange (s.drop read)
    else .ok (.double negative .zero, rest)

theorem exponentOf_eq_ok {ds : List Nat} {behind : List Piece}
    (h : exponentOf negative significand power down ds s behind = .ok (n, rest)) :
    rest = behind ∧ ∀ s' rest', exponentOf negative significand power down ds s' rest' =
      .ok (n, rest') := by
  unfold exponentOf at h ⊢
  cases he : exponentValue 0 0 ds with
  | inl e =>
      rw [he] at h
      obtain ⟨hrest, hread⟩ := scaledReading_eq_ok h
      exact ⟨hrest, fun _ => hread⟩
  | inr read =>
      rw [he] at h
      simp only at h ⊢
      split at h
      · exact absurd h (by simp [failAt])
      · rename_i hzero
        obtain ⟨rfl, rfl⟩ := Prod.mk.inj (Except.ok.inj h)
        exact ⟨rfl, fun _ _ => if_neg hzero⟩

theorem exponentPart_of_digits {digit : Piece} (hsign : (exponentSign s) = (down, digit :: front ++ rest))
    (hfront : ∀ piece ∈ digit :: front, IsDigit piece) (hrest : NoDigit rest) :
    exponentPart negative significand power s =
      exponentOf negative significand power down ((digit :: front).filterMap digit?)
        (digit :: front ++ rest) rest := by
  obtain ⟨d, hd⟩ := Option.isSome_iff_exists.mp (hfront digit List.mem_cons_self)
  unfold exponentPart
  rw [hsign]
  simp only
  rw [digits_append hfront hrest, List.filterMap_cons_some hd]
  rfl

theorem takes_exponentPart (h : exponentPart negative significand power s = .ok (n, rest)) :
    Takes (exponentPart negative significand power) s n rest := by
  obtain ⟨sign, hs, hsign, hsame⟩ := exists_exponentSign s
  obtain ⟨front, behind, hbehind, hfront, hend⟩ := exists_digits (exponentSign s).2
  cases front with
  | nil =>
      unfold exponentPart at h
      simp only at h
      rw [hbehind, digits_append hfront hend] at h
      cases behind with
      | nil => exact absurd h (by simp [failAt])
      | cons piece behind => exact absurd h (by simp [failPast])
  | cons digit front =>
      rw [exponentPart_of_digits (Prod.ext rfl hbehind) hfront hend] at h
      obtain ⟨rfl, hread⟩ := exponentOf_eq_ok h
      refine ⟨sign ++ (digit :: front), ?_,
        List.forall_mem_append.mpr ⟨hsign, numeric_of_digits hfront⟩, ?_⟩
      · rw [List.append_assoc, ← hbehind]
        exact hs
      · intro rest' hrest'
        have hsign' := hsame digit (front ++ rest') (hfront digit List.mem_cons_self)
        rw [List.append_assoc, List.cons_append,
          exponentPart_of_digits hsign' hfront hrest'.noDigit]
        exact hread _ _

/-! ## Fractions -/

/-- Reading on behind a piece that is one of a number. -/
theorem Takes.cons {read read' : List Piece → Reading Number} {piece : Piece} (hpiece : Numeric piece)
    (h : Takes read s n rest) (hread : ∀ s', read' (piece :: s') = read s') :
    Takes read' (piece :: s) n rest := by
  obtain ⟨text, rfl, hnumeric, hsame⟩ := h
  refine ⟨piece :: text, rfl, List.forall_mem_cons.mpr ⟨hpiece, hnumeric⟩, ?_⟩
  intro rest' hrest'
  rw [List.cons_append, hread]
  exact hsame rest' hrest'

/-- Reading on behind the digits of a number. -/
theorem Takes.digits_append {read read' : List Piece → Reading Number}
    (hfront : ∀ piece ∈ front, IsDigit piece) (hs : NoDigit s) (h : Takes read s n rest)
    (hread : ∀ s', NoDigit s' → read' (front ++ s') = read s') : Takes read' (front ++ s) n rest := by
  obtain ⟨text, rfl, hnumeric, hsame⟩ := h
  refine ⟨front ++ text, (List.append_assoc _ _ _).symm,
    List.forall_mem_append.mpr ⟨numeric_of_digits hfront, hnumeric⟩, ?_⟩
  intro rest' hrest'
  -- Behind the digits either the rest of the number starts or what does not go on with it.
  have hbehind : NoDigit (text ++ rest') := by
    cases text with
    | nil => exact hrest'.noDigit
    | cons piece text => exact hs
  rw [List.append_assoc, hread _ hbehind]
  exact hsame rest' hrest'

/-- Goes on to an exponent, or else ends the number. -/
def exponentOr (negative : Bool) (significand : Nat) (power : Int)
    (ended : List Piece → Reading Number) : List Piece → Reading Number
  | .scalar 'e' :: s => exponentPart negative significand power s
  | .scalar 'E' :: s => exponentPart negative significand power s
  | s => ended s

/-- A reading that takes nothing, whatever the text is. -/
def Ends (ended : List Piece → Reading Number) : Prop :=
  ∀ s n rest, ended s = .ok (n, rest) → rest = s ∧ ∀ rest', ended rest' = .ok (n, rest')

theorem exponentOr_of_stops {ended : List Piece → Reading Number} (h : Stops s) :
    exponentOr negative significand power ended s = ended s := by
  unfold exponentOr
  split
  · exact absurd (Or.inr (Or.inr (Or.inl rfl))) (h _ rfl)
  · exact absurd (Or.inr (Or.inr (Or.inr rfl))) (h _ rfl)
  · rfl

theorem takes_exponentOr {ended : List Piece → Reading Number} (hended : Ends ended)
    (h : exponentOr negative significand power ended s = .ok (n, rest)) :
    Takes (exponentOr negative significand power ended) s n rest := by
  unfold exponentOr at h
  split at h
  · exact (takes_exponentPart h).cons (Or.inl (Or.inr (Or.inr (Or.inl rfl)))) fun _ => rfl
  · exact (takes_exponentPart h).cons (Or.inl (Or.inr (Or.inr (Or.inr rfl)))) fun _ => rfl
  · obtain ⟨rfl, hsame⟩ := hended _ _ _ h
    refine ⟨[], rfl, fun _ hpiece => absurd hpiece List.not_mem_nil, ?_⟩
    intro rest' hrest'
    rw [List.nil_append, exponentOr_of_stops hrest']
    exact hsame rest'

theorem ends_scaledReading : Ends (scaledReading negative significand power) :=
  fun _ _ _ => scaledReading_eq_ok

/-- A number without point and exponent, some digits of which may not have fit. -/
def whole (negative : Bool) (significand dropped : Nat) (s : List Piece) : Reading Number :=
  if dropped = 0 then .ok (ofSignificand negative significand, s)
  else scaledReading negative significand dropped s

theorem ends_whole : Ends (whole negative significand dropped) := by
  intro s n rest h
  unfold whole at h ⊢
  split at h
  · rename_i hzero
    obtain ⟨rfl, rfl⟩ := Prod.mk.inj (Except.ok.inj h)
    exact ⟨rfl, fun _ => if_pos hzero⟩
  · rename_i hdropped
    obtain ⟨hrest, hsame⟩ := scaledReading_eq_ok h
    refine ⟨hrest, ?_⟩
    intro rest'
    rw [if_neg hdropped]
    exact hsame rest'

/-- Reads on behind the digits behind a point. -/
def behindPoint (negative : Bool) (significand dropped : Nat) (ds : List Nat) :
    List Piece → Reading Number :=
  let total := absorb significand ds
  let power : Int := (dropped : Int) - (ds.length - total.2 : Nat)
  exponentOr negative total.1 power (scaledReading negative total.1 power)

theorem fractionPart_of_point {digit : Piece} (hfront : ∀ piece ∈ digit :: front, IsDigit piece)
    (hrest : NoDigit rest) :
    fractionPart negative significand dropped (.scalar '.' :: (digit :: front ++ rest)) =
      behindPoint negative significand dropped ((digit :: front).filterMap digit?) rest := by
  obtain ⟨d, hd⟩ := Option.isSome_iff_exists.mp (hfront digit List.mem_cons_self)
  rw [fractionPart, digits_append hfront hrest, List.filterMap_cons_some hd]
  rfl

theorem fractionPart_of_no_point (h : ∀ rest, s ≠ .scalar '.' :: rest) :
    fractionPart negative significand dropped s =
      exponentOr negative significand dropped (whole negative significand dropped) s := by
  unfold fractionPart
  split
  · exact absurd rfl (h _)
  · rfl
  · rfl
  · rename_i he hE
    rw [exponentOr]
    · rfl
    · exact he
    · exact hE

theorem takes_fractionPart (h : fractionPart negative significand dropped s = .ok (n, rest)) :
    Takes (fractionPart negative significand dropped) s n rest := by
  by_cases hpoint : ∃ behind, s = .scalar '.' :: behind
  · obtain ⟨behind, rfl⟩ := hpoint
    obtain ⟨front, behind, rfl, hfront, hend⟩ := exists_digits behind
    cases front with
    | nil =>
        rw [fractionPart, digits_append hfront hend] at h
        cases behind with
        | nil => exact absurd h (by simp [failAt])
        | cons piece behind => exact absurd h (by simp [failPast])
    | cons digit front =>
        rw [fractionPart_of_point hfront hend] at h
        have htakes : Takes (fun s' => fractionPart negative significand dropped (.scalar '.' :: s'))
            (digit :: front ++ behind) n rest :=
          (takes_exponentOr ends_scaledReading h).digits_append hfront hend fun s' hs' =>
            fractionPart_of_point hfront hs'
        exact htakes.cons (Or.inl (Or.inr (Or.inl rfl))) fun _ => rfl
  · have hno : ∀ behind, s ≠ .scalar '.' :: behind := fun behind hs => hpoint ⟨behind, hs⟩
    rw [fractionPart_of_no_point hno] at h
    obtain ⟨text, rfl, hnumeric, hsame⟩ := takes_exponentOr ends_whole h
    refine ⟨text, rfl, hnumeric, ?_⟩
    intro rest' hrest'
    rw [fractionPart_of_no_point]
    · exact hsame rest' hrest'
    · intro behind hbehind
      cases text with
      | nil =>
          rw [List.nil_append] at hbehind
          rw [hbehind] at hrest'
          exact hrest' _ rfl (Or.inr (Or.inl rfl))
      | cons piece text =>
          obtain ⟨hpiece, -⟩ := List.cons.inj hbehind
          rw [hpiece] at hno
          exact hno _ rfl

/-! ## Numbers -/

theorem read_of_digits {digit : Piece} (hfront : ∀ piece ∈ digit :: front, IsDigit piece)
    (hone : ∀ d ds, (digit :: front).filterMap digit? ≠ 0 :: d :: ds) (hrest : NoDigit rest) :
    read negative (digit :: front ++ rest) =
      fractionPart negative (absorb 0 ((digit :: front).filterMap digit?)).1
        (absorb 0 ((digit :: front).filterMap digit?)).2 rest := by
  obtain ⟨d, hd⟩ := Option.isSome_iff_exists.mp (hfront digit List.mem_cons_self)
  rw [List.filterMap_cons_some hd] at hone ⊢
  unfold read
  rw [digits_append hfront hrest, List.filterMap_cons_some hd]
  split
  · rename_i heq
    exact absurd (congrArg Prod.fst heq) (by simp)
  · rename_i heq
    exact absurd (congrArg Prod.fst heq) (by simp)
  · rename_i heq
    exact absurd (congrArg Prod.fst heq) (hone _ _)
  · rename_i heq
    obtain ⟨rfl, rfl⟩ := Prod.mk.inj heq
    rfl

/-- **A number that is read starts with a digit, and is read with the same value before anything that does
not go on with it.** -/
theorem exists_read (h : read negative s = .ok (n, rest)) :
    ∃ digit text, s = digit :: text ++ rest ∧ IsDigit digit ∧
      (∀ piece ∈ digit :: text, Numeric piece) ∧
      ∀ rest', Stops rest' → read negative (digit :: text ++ rest') = .ok (n, rest') := by
  obtain ⟨front, behind, rfl, hfront, hend⟩ := exists_digits s
  cases front with
  | nil =>
      unfold read at h
      rw [digits_append hfront hend] at h
      cases behind with
      | nil => exact absurd h (by simp [failAt])
      | cons piece behind => exact absurd h (by simp [failPast])
  | cons digit front =>
      have hone : ∀ d ds, (digit :: front).filterMap digit? ≠ 0 :: d :: ds := by
        intro d ds hds
        unfold read at h
        rw [digits_append hfront hend, hds] at h
        exact absurd h (by simp [failPast])
      rw [read_of_digits hfront hone hend] at h
      obtain ⟨text, hs, hnumeric, hsame⟩ :
          Takes (read negative) (digit :: front ++ behind) n rest :=
        (takes_fractionPart h).digits_append hfront hend fun s' hs' => read_of_digits hfront hone hs'
      cases text with
      | nil =>
          have hempty := hsame [] stops_nil
          exact absurd hempty (by simp [read, digits, failAt])
      | cons first text =>
          obtain ⟨rfl, -⟩ := List.cons.inj (hs : digit :: (front ++ behind) = first :: (text ++ rest))
          exact ⟨digit, text, hs, hfront digit List.mem_cons_self, hnumeric, hsame⟩

/-- A number reads the same before anything that does not go on with it. -/
theorem read_append {text : List Piece} (h : read negative text = .ok (n, [])) (hrest : Stops rest) :
    read negative (text ++ rest) = .ok (n, rest) := by
  obtain ⟨digit, behind, rfl, -, -, hsame⟩ := exists_read h
  rw [List.append_nil]
  exact hsame rest hrest

theorem numeric_of_read {text : List Piece} (h : read negative text = .ok (n, [])) :
    text ≠ [] ∧ ∀ piece ∈ text, Numeric piece := by
  obtain ⟨digit, behind, rfl, -, hnumeric, -⟩ := exists_read h
  rw [List.append_nil]
  exact ⟨List.cons_ne_nil _ _, hnumeric⟩

theorem exists_scalar_of_read (h : read negative s = .ok (n, rest)) :
    ∃ c behind, s = .scalar c :: behind ∧ c.isDigit = true := by
  obtain ⟨digit, behind, rfl, hdigit, -, -⟩ := exists_read h
  cases digit with
  | malformed bytes => exact absurd hdigit (by simp [IsDigit, digit?])
  | scalar c =>
      refine ⟨c, behind ++ rest, rfl, ?_⟩
      by_contra hnot
      exact not_isDigit_of_scalar (by simpa using hnot) hdigit

end Number

end ToolNodes.Json
