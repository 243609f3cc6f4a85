import ToolNodes.Json.Printer
import ToolNodes.Proofs.Json.Contents

/-!
# Quoted strings are contents

Every character of a string prints as itself, as a backslash and a letter, or as a `\u` escape of four
digits. Each of these may stand in a string for the character (`contents_escapeChar`), so what a string
prints as between its quotes are its contents (`contents_escaped`).
-/

namespace ToolNodes.Json

open ToolNodes.Text

variable {text : List Piece} {cs : List Char}

/-! ## Escapes -/

theorem hexDigit?_hexLower : ∀ d, d < 16 → hexDigit? (hexLower d) = some d := by decide

/-- The four digits of a control character. -/
theorem hex_low {n : Nat} (hn : n < 0x20) :
    Hex [.scalar '0', .scalar '0', .scalar (hexLower (n / 16)), .scalar (hexLower (n % 16))] n := by
  have hzero : hexDigit? '0' = some 0 := by decide
  have hhigh := hexDigit?_hexLower (n / 16) (by omega)
  have hlow := hexDigit?_hexLower (n % 16) (by omega)
  have hvalue : ((0 * 16 + 0) * 16 + n / 16) * 16 + n % 16 = n := by omega
  have hhex := Hex.digits hzero hzero hhigh hlow
  rw [hvalue] at hhex
  exact hhex

/-- A control character is no surrogate, so its escape stands alone. -/
theorem escapes_low {c : Char} (hc : c.toNat < 0x20) :
    Escapes [.scalar 'u', .scalar '0', .scalar '0', .scalar (hexLower (c.toNat / 16)),
      .scalar (hexLower (c.toNat % 16))] c := by
  have hlow : isLowSurrogate c.toNat = false := by
    unfold isLowSurrogate
    simp
    omega
  have hhigh : isHighSurrogate c.toNat = false := by
    unfold isHighSurrogate
    simp
    omega
  have hunit := Escapes.unit (hex_low hc) hlow hhigh
  rw [Char.ofNat_toNat] at hunit
  exact hunit

theorem contents_letter {letter c : Char} (hl : letterEscape? letter = some c)
    (h : Contents text cs) : Contents (.scalar '\\' :: .scalar letter :: text) (c :: cs) :=
  Contents.escape (Escapes.letter hl) h

/-! ## Strings -/

theorem contents_escapeChar (c : Char) (h : Contents text cs) :
    Contents ((escapeChar c).map .scalar ++ text) (c :: cs) := by
  unfold escapeChar
  split
  · subst_vars
    exact contents_letter rfl h
  split
  · subst_vars
    exact contents_letter rfl h
  split
  · subst_vars
    exact contents_letter rfl h
  split
  · subst_vars
    exact contents_letter rfl h
  split
  · subst_vars
    exact contents_letter rfl h
  split
  · subst_vars
    exact contents_letter rfl h
  split
  · subst_vars
    exact contents_letter rfl h
  split
  · rename_i hc
    exact Contents.escape (escapes_low hc) h
  · rename_i hquote hbackslash _ _ _ _ _ hc
    exact Contents.plain hquote hbackslash (Nat.le_of_not_lt hc) h

/-- **A string prints as its contents.** -/
theorem contents_escaped (cs : List Char) :
    Contents ((cs.flatMap escapeChar).map .scalar ++ [.scalar '"']) cs := by
  induction cs with
  | nil => exact Contents.close
  | cons c cs ih =>
      rw [List.flatMap_cons, List.map_append, List.append_assoc]
      exact contents_escapeChar c ih

theorem map_quote (s : String) :
    (quote s).map Piece.scalar =
      .scalar '"' :: ((s.toList.flatMap escapeChar).map .scalar ++ [.scalar '"']) := by
  simp [quote]

end ToolNodes.Json
