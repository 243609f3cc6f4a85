import Mathlib.Data.List.Forall2
import ToolNodes.Json.Reader
import ToolNodes.Proofs.Basic
import ToolNodes.Proofs.Text.Utf8

/-!
# What stands in a string

Behind the opening quote a string has characters as they are and escapes, and then the closing quote
(`Contents`). An escape is a letter or one or two units of four digits (`Escapes`). Reading a string takes
exactly such a text (`exists_contents`), whatever stands behind it (`stringBody_of_contents`).
-/

namespace ToolNodes.Json

open ToolNodes.Text

/-! ## Escapes -/

/-- Four hexadecimal digits and the unit that they make. -/
inductive Hex : List Piece → Nat → Prop
  | digits {a b c d : Char} {x y z w : Nat} (ha : hexDigit? a = some x) (hb : hexDigit? b = some y)
      (hc : hexDigit? c = some z) (hd : hexDigit? d = some w) :
      Hex [.scalar a, .scalar b, .scalar c, .scalar d] (((x * 16 + y) * 16 + z) * 16 + w)

/-- What stands behind a backslash, and the character that it is for. -/
inductive Escapes : List Piece → Char → Prop
  | letter {l c : Char} (h : letterEscape? l = some c) : Escapes [.scalar l] c
  | unit {digits : List Piece} {n : Nat} (h : Hex digits n) (hlow : isLowSurrogate n = false)
      (hhigh : isHighSurrogate n = false) : Escapes (.scalar 'u' :: digits) (Char.ofNat n)
  | pair {digits digits' : List Piece} {n m : Nat} (h : Hex digits n) (h' : Hex digits' m)
      (hlow : isLowSurrogate n = false) (hhigh : isHighSurrogate n = true)
      (hlow' : isLowSurrogate m = true) :
      Escapes (.scalar 'u' :: digits ++ .scalar '\\' :: .scalar 'u' :: digits')
        (Char.ofNat (0x10000 + (n - 0xD800) * 0x400 + (m - 0xDC00)))

variable {s e rest : List Piece} {n : Nat} {c : Char}

theorem mapM_cons_eq_some {α β : Type} {f : α → Option β} {a : α} {l : List α} {bs : List β}
    (h : (a :: l).mapM f = some bs) : ∃ b bs', f a = some b ∧ l.mapM f = some bs' ∧ bs = b :: bs' := by
  rw [List.mapM_cons] at h
  obtain ⟨b, hb, h⟩ := Option.bind_eq_some_iff.mp h
  obtain ⟨bs', hbs, h⟩ := Option.bind_eq_some_iff.mp h
  exact ⟨b, bs', hb, hbs, (Option.some.inj h).symm⟩

theorem forall₂_of_mapM {α β : Type} {f : α → Option β} {l : List α} {bs : List β}
    (h : l.mapM f = some bs) : List.Forall₂ (fun a b => f a = some b) l bs := by
  induction l generalizing bs with
  | nil =>
      obtain rfl : [] = bs := Option.some.inj h
      exact List.Forall₂.nil
  | cons a l ih =>
      obtain ⟨b, bs', hb, hbs, rfl⟩ := mapM_cons_eq_some h
      exact List.Forall₂.cons hb (ih hbs)

/-- A piece with a hexadecimal value is a character. -/
theorem exists_scalar_of_hex {piece : Piece} {x : Nat} (h : piece.char?.bind hexDigit? = some x) :
    ∃ c, piece = .scalar c ∧ hexDigit? c = some x := by
  cases piece with
  | scalar c => exact ⟨c, rfl, h⟩
  | malformed bytes => exact absurd h (by simp [Piece.char?])

theorem exists_hex (h : hexUnit s = .ok n) : ∃ digits, s = digits ++ s.drop 4 ∧ Hex digits n := by
  unfold hexUnit at h
  split at h
  · exact absurd h (by simp)
  · split at h
    · rename_i hmap
      obtain rfl := Except.ok.inj h
      refine ⟨s.take 4, (List.take_append_drop 4 s).symm, ?_⟩
      have hdigits := forall₂_of_mapM hmap
      generalize s.take 4 = digits at hdigits
      rcases hdigits with _ | ⟨ha, _ | ⟨hb, _ | ⟨hc, _ | ⟨hd, hnil⟩⟩⟩⟩
      cases hnil
      obtain ⟨a, rfl, ha⟩ := exists_scalar_of_hex ha
      obtain ⟨b, rfl, hb⟩ := exists_scalar_of_hex hb
      obtain ⟨c, rfl, hc⟩ := exists_scalar_of_hex hc
      obtain ⟨d, rfl, hd⟩ := exists_scalar_of_hex hd
      exact Hex.digits ha hb hc hd
    · exact absurd h (by simp)

theorem Hex.length (h : Hex e n) : e.length = 4 := by
  cases h
  rfl

theorem hexUnit_of_hex (h : Hex e n) (rest : List Piece) : hexUnit (e ++ rest) = .ok n := by
  obtain ⟨ha, hb, hc, hd⟩ := h
  rename_i a b c d x y z w
  have hwidth : ¬ width ([.scalar a, .scalar b, .scalar c, .scalar d] ++ rest) < 4 := by
    have ha := Char.utf8Size_pos a
    have hb := Char.utf8Size_pos b
    have hc := Char.utf8Size_pos c
    have hd := Char.utf8Size_pos d
    simp only [List.cons_append, List.nil_append, width, Piece.width]
    omega
  unfold hexUnit
  rw [if_neg hwidth]
  simp only [List.cons_append, List.nil_append, List.take_succ_cons, List.take_zero, List.mapM_cons,
    List.mapM_nil, Piece.char?, Option.bind_some, ha, hb, hc, hd, Option.pure_def, Option.bind_eq_bind]

theorem exists_surrogatePair {high : Nat} (h : surrogatePair high s = .ok c) :
    ∃ digits m, s = .scalar '\\' :: .scalar 'u' :: (digits ++ s.drop 6) ∧ Hex digits m ∧
      isLowSurrogate m = true ∧
      c = Char.ofNat (0x10000 + (high - 0xD800) * 0x400 + (m - 0xDC00)) := by
  unfold surrogatePair at h
  split at h
  · exact absurd h (by simp)
  · split at h
    · exact absurd h (by simp)
    · obtain ⟨m, hunit, h⟩ := ok_of_bind h
      split at h
      · rename_i hlow
        obtain ⟨digits, hs, hhex⟩ := exists_hex hunit
        refine ⟨digits, m, ?_, hhex, hlow, (Except.ok.inj h).symm⟩
        exact congrArg (fun t => Piece.scalar '\\' :: Piece.scalar 'u' :: t) hs
      · exact absurd h (by simp)
    · exact absurd h (by simp)
  · exact absurd h (by simp)

/-- **What is read behind a backslash is an escape.** -/
theorem exists_escapes {used : Nat} (h : escape s = .ok (c, used)) :
    ∃ e, s = e ++ s.drop used ∧ Escapes e c := by
  unfold escape at h
  split at h
  · exact absurd h (by simp)
  · obtain ⟨n, hunit, h⟩ := ok_of_bind h
    obtain ⟨digits, hs, hhex⟩ := exists_hex hunit
    split at h
    · exact absurd h (by simp)
    · rename_i hlow
      rw [Bool.not_eq_true] at hlow
      split at h
      · rename_i hhigh
        obtain ⟨d, hpair, h⟩ := ok_of_bind h
        obtain ⟨rfl, rfl⟩ := Prod.mk.inj (Except.ok.inj h)
        obtain ⟨digits', m, hs', hhex', hlow', hc⟩ := exists_surrogatePair hpair
        rw [hs', List.drop_drop] at hs
        rw [hc]
        refine ⟨.scalar 'u' :: digits ++ .scalar '\\' :: .scalar 'u' :: digits', ?_,
          Escapes.pair hhex hhex' hlow hhigh hlow'⟩
        rw [List.append_assoc]
        exact congrArg (Piece.scalar 'u' :: ·) hs
      · rename_i hhigh
        obtain ⟨rfl, rfl⟩ := Prod.mk.inj (Except.ok.inj h)
        rw [Bool.not_eq_true] at hhigh
        refine ⟨.scalar 'u' :: digits, ?_, Escapes.unit hhex hlow hhigh⟩
        exact congrArg (Piece.scalar 'u' :: ·) hs
  · rename_i piece behind _
    split at h
    · rename_i d hletter
      obtain ⟨rfl, rfl⟩ := Prod.mk.inj (Except.ok.inj h)
      cases piece with
      | scalar l => exact ⟨[.scalar l], rfl, Escapes.letter hletter⟩
      | malformed bytes => exact absurd hletter (by simp [Piece.char?])
    · exact absurd h (by simp)

theorem escape_of_escapes (h : Escapes e c) (rest : List Piece) :
    escape (e ++ rest) = .ok (c, e.length) := by
  cases h with
  | letter h =>
      rename_i l
      have hu : l ≠ 'u' := by
        rintro rfl
        simp [letterEscape?] at h
      simp [escape, hu, Piece.char?, h]
  | unit h hlow hhigh =>
      simp only [List.cons_append, escape, unicodeEscape, hexUnit_of_hex h, bind, Except.bind, hlow,
        hhigh, Bool.false_eq_true, if_false, List.length_cons, h.length]
  | pair h h' hlow hhigh hlow' =>
      simp only [List.cons_append, List.append_assoc, escape, unicodeEscape, hexUnit_of_hex h, bind,
        Except.bind, hlow, hhigh, Bool.false_eq_true, if_false, if_true, List.length_cons,
        List.length_append, h.length, h'.length]
      rw [← h.length, List.drop_left]
      simp only [surrogatePair, hexUnit_of_hex h', hlow', bind, Except.bind, if_true, h.length]

/-! ## Strings -/

/-- What stands behind an opening quote, the closing one included, and the characters of the string. -/
inductive Contents : List Piece → List Char → Prop
  | close : Contents [.scalar '"'] []
  | plain {c : Char} {text : List Piece} {cs : List Char} (hquote : c ≠ '"') (hescape : c ≠ '\\')
      (hcontrol : 0x20 ≤ c.toNat) (h : Contents text cs) : Contents (.scalar c :: text) (c :: cs)
  | escape {e text : List Piece} {c : Char} {cs : List Char} (he : Escapes e c)
      (h : Contents text cs) : Contents (.scalar '\\' :: (e ++ text)) (c :: cs)

theorem content_skip (e s : List Piece) : content e.length (e ++ s) = content 0 s := by
  induction e with
  | nil => rfl
  | cons piece e ih => exact ih

theorem content_of_contents {text : List Piece} {cs : List Char} (h : Contents text cs)
    (rest : List Piece) : content 0 (text ++ rest) = .ok (cs.map .scalar, rest) := by
  induction h with
  | close => simp [content]
  | plain hquote hescape hcontrol h ih =>
      rename_i c text cs
      have hlow : ¬ c.toNat < 0x20 := Nat.not_lt.mpr hcontrol
      simp [content, hquote, hescape, hlow, Piece.char?, ih, bind, Except.bind]
  | escape he h ih =>
      rename_i e text c cs
      have hescape := escape_of_escapes he (text ++ rest)
      have hskip := content_skip e (text ++ rest)
      rw [ih] at hskip
      simp [content, hescape, hskip, bind, Except.bind]

theorem stringBody_of_contents {text : List Piece} {cs : List Char} (h : Contents text cs)
    (rest : List Piece) : stringBody (text ++ rest) = .ok (String.ofList cs, rest) := by
  have hchars := Utf8.mapM_char?_piecesOf (String.ofList cs)
  unfold piecesOf at hchars
  rw [String.toList_ofList] at hchars
  unfold stringBody
  rw [content_of_contents h]
  simp only [bind, Except.bind, hchars]

/-- What is read of a string at one of its pieces: its end, an escape or a character as it is. -/
theorem content_cases {piece : Piece} {inner : List Piece}
    (h : content 0 (piece :: s) = .ok (inner, rest)) :
    (piece = .scalar '"' ∧ inner = [] ∧ rest = s) ∨
    (piece = .scalar '\\' ∧ ∃ c used inner', escape s = .ok (c, used) ∧
      content used s = .ok (inner', rest) ∧ inner = .scalar c :: inner') ∨
    (piece ≠ .scalar '"' ∧ piece ≠ .scalar '\\' ∧
      (piece.char?.any fun c => decide (c.toNat < 0x20)) = false ∧
      ∃ inner', content 0 s = .ok (inner', rest) ∧ inner = piece :: inner') := by
  rw [content] at h
  split at h
  · rename_i hquote
    obtain ⟨rfl, rfl⟩ := Prod.mk.inj (Except.ok.inj h)
    exact Or.inl ⟨hquote, rfl, rfl⟩
  · rename_i hquote
    split at h
    · rename_i hescape
      obtain ⟨⟨c, used⟩, hread, h⟩ := ok_of_bind h
      obtain ⟨⟨inner', rest'⟩, hbehind, h⟩ := ok_of_bind h
      obtain ⟨rfl, rfl⟩ := Prod.mk.inj (Except.ok.inj h)
      exact Or.inr (Or.inl ⟨hescape, c, used, inner', hread, hbehind, rfl⟩)
    · rename_i hescape
      split at h
      · exact absurd h (by simp [failPast])
      · rename_i hcontrol
        obtain ⟨⟨inner', rest'⟩, hbehind, h⟩ := ok_of_bind h
        obtain ⟨rfl, rfl⟩ := Prod.mk.inj (Except.ok.inj h)
        exact Or.inr (Or.inr ⟨hquote, hescape, by simpa using hcontrol, inner', hbehind, rfl⟩)

theorem contents_of_content {skip : Nat} {inner : List Piece} {cs : List Char}
    (h : content skip s = .ok (inner, rest)) (hchars : inner.mapM Piece.char? = some cs) :
    ∃ text, s.drop skip = text ++ rest ∧ Contents text cs := by
  -- The induction is on the text, behind any number of pieces that belong to an escape.
  induction s generalizing skip inner cs with
  | nil => exact absurd h (by simp [content, failAt])
  | cons piece s ih =>
      cases skip with
      | succ skip => exact ih h hchars
      | zero =>
          rw [List.drop_zero]
          rcases content_cases h with ⟨rfl, rfl, rfl⟩ | ⟨rfl, c, used, inner', hread, hbehind, rfl⟩ |
            ⟨hquote, hescape, hcontrol, inner', hbehind, rfl⟩
          · obtain rfl : [] = cs := Option.some.inj hchars
            exact ⟨[.scalar '"'], rfl, Contents.close⟩
          · obtain ⟨d, ds, hd, hds, rfl⟩ := mapM_cons_eq_some hchars
            obtain rfl : c = d := Option.some.inj hd
            obtain ⟨text, htext, hcontents⟩ := ih hbehind hds
            obtain ⟨e, he, hescapes⟩ := exists_escapes hread
            refine ⟨.scalar '\\' :: (e ++ text), ?_, Contents.escape hescapes hcontents⟩
            rw [List.cons_append, List.append_assoc, ← htext, ← he]
          · obtain ⟨c, ds, hc, hds, rfl⟩ := mapM_cons_eq_some hchars
            obtain ⟨text, htext, hcontents⟩ := ih hbehind hds
            cases piece with
            | malformed bytes => exact absurd hc (by simp [Piece.char?])
            | scalar d =>
                obtain rfl : d = c := Option.some.inj hc
                refine ⟨.scalar d :: text, congrArg (Piece.scalar d :: ·) htext,
                  Contents.plain ?_ ?_ ?_ hcontents⟩
                · rintro rfl
                  exact hquote rfl
                · rintro rfl
                  exact hescape rfl
                · simpa [Piece.char?] using hcontrol

/-- **What is read behind an opening quote is the contents of a string.** -/
theorem exists_contents {t : String} (h : stringBody s = .ok (t, rest)) :
    ∃ text, s = text ++ rest ∧ Contents text t.toList := by
  obtain ⟨⟨inner, behind⟩, hcontent, h⟩ := ok_of_bind h
  simp only at h
  split at h
  · rename_i cs hchars
    obtain ⟨rfl, rfl⟩ := Prod.mk.inj (Except.ok.inj h)
    rw [String.toList_ofList]
    exact contents_of_content hcontent hchars
  · exact absurd h (by simp)

end ToolNodes.Json
