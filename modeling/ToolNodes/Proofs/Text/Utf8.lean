import ToolNodes.Text.Utf8

/-!
# Written text reads back

`Utf8.encode` gives a character one to four bytes; `Utf8.pieces` takes a byte at a time. The first
byte of a character tells how many bytes follow and in which range the next one lies, and the bits
that the bytes hold add up to the code point again.
-/

namespace ToolNodes.Text.Utf8

/-! ## Bytes -/

theorem toNat_ofNat_of_lt {n : Nat} (h : n < 256) : (UInt8.ofNat n).toNat = n := by
  rw [UInt8.toNat_ofNat']
  exact Nat.mod_eq_of_lt h

theorem piecesFrom_start {b : UInt8} {rest : List UInt8} {begun : Begun}
    (h : start b = .inr begun) :
    piecesFrom none (b :: rest) = piecesFrom (some begun) rest := by
  rw [piecesFrom, h]

/-- A byte in range that completes a character. -/
theorem piecesFrom_last {begun : Begun} {n : Nat} {rest : List UInt8} (hn : n < 256)
    (hneed : begun.need = 1) (hlow : begun.low.toNat ≤ n) (hhigh : n ≤ begun.high.toNat) :
    piecesFrom (some begun) (UInt8.ofNat n :: rest) =
      .scalar (Char.ofNat (begun.bits * 64 + (n - 0x80))) :: piecesFrom none rest := by
  have hb := toNat_ofNat_of_lt hn
  have hlow' : begun.low ≤ UInt8.ofNat n := by
    rw [UInt8.le_iff_toNat_le, hb]
    exact hlow
  have hhigh' : UInt8.ofNat n ≤ begun.high := by
    rw [UInt8.le_iff_toNat_le, hb]
    exact hhigh
  simp [piecesFrom, hlow', hhigh', hneed, hb]

/-- A byte in range behind which the character needs more. -/
theorem piecesFrom_more {begun : Begun} {n : Nat} {rest : List UInt8} (hn : n < 256)
    (hneed : begun.need ≠ 1) (hlow : begun.low.toNat ≤ n) (hhigh : n ≤ begun.high.toNat) :
    piecesFrom (some begun) (UInt8.ofNat n :: rest) =
      piecesFrom (some ⟨begun.bytes ++ [UInt8.ofNat n], begun.bits * 64 + (n - 0x80),
        begun.need - 1, 0x80, 0xBF⟩) rest := by
  have hb := toNat_ofNat_of_lt hn
  have hlow' : begun.low ≤ UInt8.ofNat n := by
    rw [UInt8.le_iff_toNat_le, hb]
    exact hlow
  have hhigh' : UInt8.ofNat n ≤ begun.high := by
    rw [UInt8.le_iff_toNat_le, hb]
    exact hhigh
  simp [piecesFrom, hlow', hhigh', hneed, hb]

/-! ## First bytes -/

theorem start_two {n : Nat} (hlow : 0xC2 ≤ n) (hhigh : n ≤ 0xDF) :
    start (UInt8.ofNat n) = .inr ⟨[UInt8.ofNat n], n - 0xC0, 1, 0x80, 0xBF⟩ := by
  have hb := toNat_ofNat_of_lt (n := n) (by omega)
  unfold start
  rw [hb, if_neg (by omega), if_neg (by omega), if_pos (by omega)]

/-- The bounds leave out what two bytes could hold, and the surrogates. -/
theorem start_three {n : Nat} (hlow : 0xE0 ≤ n) (hhigh : n ≤ 0xEF) :
    start (UInt8.ofNat n) = .inr ⟨[UInt8.ofNat n], n - 0xE0, 2,
      if n = 0xE0 then 0xA0 else 0x80, if n = 0xED then 0x9F else 0xBF⟩ := by
  have hb := toNat_ofNat_of_lt (n := n) (by omega)
  unfold start
  rw [hb, if_neg (by omega), if_neg (by omega), if_neg (by omega)]
  by_cases h₀ : n = 0xE0
  · subst h₀
    rfl
  · by_cases h₁ : n = 0xED
    · subst h₁
      rfl
    · simp [h₀, h₁, hhigh]

/-- The bounds leave out what three bytes could hold, and what is past the last code point. -/
theorem start_four {n : Nat} (hlow : 0xF0 ≤ n) (hhigh : n ≤ 0xF4) :
    start (UInt8.ofNat n) = .inr ⟨[UInt8.ofNat n], n - 0xF0, 3,
      if n = 0xF0 then 0x90 else 0x80, if n = 0xF4 then 0x8F else 0xBF⟩ := by
  have hb := toNat_ofNat_of_lt (n := n) (by omega)
  unfold start
  rw [hb, if_neg (by omega), if_neg (by omega), if_neg (by omega), if_neg (by omega),
    if_neg (by omega), if_neg (by omega)]
  by_cases h₀ : n = 0xF0
  · subst h₀
    rfl
  · by_cases h₁ : n = 0xF4
    · subst h₁
      rfl
    · simp [h₀, h₁, show n ≤ 0xF3 by omega]

/-! ## Characters and texts -/

/-- The bytes of a character make that character, whatever stands behind them. -/
theorem piecesFrom_encodeChar (c : Char) (rest : List UInt8) :
    piecesFrom none (String.utf8EncodeChar c ++ rest) = .scalar c :: piecesFrom none rest := by
  have hc : Char.ofNat c.val.toNat = c := Char.ofNat_toNat c
  have hv : c.val.toNat < 0xD800 ∨ (0xDFFF < c.val.toNat ∧ c.val.toNat < 0x110000) := c.valid
  unfold String.utf8EncodeChar
  generalize c.val.toNat = n at hc hv
  simp only []
  split
  · have hb := toNat_ofNat_of_lt (n := n) (by omega)
    have hs : start (UInt8.ofNat n) = .inl (.scalar c) := by
      unfold start
      rw [hb, if_pos (by omega), hc]
    simp [piecesFrom, hs]
  split
  · have hbits : (n / 64 % 32 + 192 - 192) * 64 + (n % 64 + 128 - 128) = n := by omega
    simp only [List.cons_append, List.nil_append]
    rw [piecesFrom_start (start_two (by omega) (by omega)),
      piecesFrom_last (by omega) rfl (by simp) (by simp; omega)]
    simp only []
    rw [hbits, hc]
  split
  · have hbits : ((n / 4096 % 16 + 224 - 224) * 64 + (n / 64 % 64 + 128 - 128)) * 64 +
        (n % 64 + 128 - 128) = n := by omega
    simp only [List.cons_append, List.nil_append]
    rw [piecesFrom_start (start_three (by omega) (by omega)),
      piecesFrom_more (by omega) (by simp) (by simp only []; split <;> simp <;> omega)
        (by simp only []; split <;> simp <;> omega),
      piecesFrom_last (by omega) rfl (by simp) (by simp; omega)]
    simp only []
    rw [hbits, hc]
  · have hbits : (((n / 262144 % 8 + 240 - 240) * 64 + (n / 4096 % 64 + 128 - 128)) * 64 +
        (n / 64 % 64 + 128 - 128)) * 64 + (n % 64 + 128 - 128) = n := by omega
    simp only [List.cons_append, List.nil_append]
    rw [piecesFrom_start (start_four (by omega) (by omega)),
      piecesFrom_more (by omega) (by simp) (by simp only []; split <;> simp <;> omega)
        (by simp only []; split <;> simp <;> omega),
      piecesFrom_more (by omega) (by simp) (by simp) (by simp; omega),
      piecesFrom_last (by omega) rfl (by simp) (by simp; omega)]
    simp only []
    rw [hbits, hc]

theorem pieces_encode (text : String) : pieces (encode text) = piecesOf text := by
  unfold pieces encode piecesOf
  induction text.toList with
  | nil => rfl
  | cons c cs ih =>
      rw [List.flatMap_cons, piecesFrom_encodeChar, ih]
      rfl

theorem mapM_char?_piecesOf (text : String) :
    (piecesOf text).mapM Piece.char? = some text.toList := by
  unfold piecesOf
  induction text.toList with
  | nil => rfl
  | cons c cs ih =>
      rw [List.map_cons, List.mapM_cons, ih]
      rfl

/-- **Written text reads back.** -/
theorem decode?_encode (text : String) : decode? (encode text) = some text := by
  unfold decode?
  rw [pieces_encode, mapM_char?_piecesOf]
  simp

/-- Two texts are never written alike. -/
theorem encode_injective {a b : String} (h : encode a = encode b) : a = b := by
  have htext := congrArg decode? h
  rw [decode?_encode, decode?_encode] at htext
  exact Option.some.inj htext

/-! ## Bytes of a text -/

theorem encode_ofList (s : List Char) :
    encode (String.ofList s) = s.flatMap String.utf8EncodeChar := by
  unfold encode
  rw [String.toList_ofList]

theorem encode_append (a b : String) : encode (a ++ b) = encode a ++ encode b := by
  unfold encode
  rw [String.toList_append, List.flatMap_append]

/-- A byte below 128 is a character of its own. -/
theorem toNat_of_mem_utf8EncodeChar {c : Char} {b : UInt8} (hb : b.toNat < 128)
    (h : b ∈ String.utf8EncodeChar c) : c.toNat = b.toNat := by
  have hlead : ∀ {n}, 128 ≤ n → n < 256 → b ≠ UInt8.ofNat n := by
    rintro n hlow hhigh rfl
    rw [toNat_ofNat_of_lt hhigh] at hb
    omega
  unfold String.utf8EncodeChar at h
  simp only at h
  split at h
  · rename_i hone
    have hc : c.toNat ≤ 127 := hone
    rw [List.mem_singleton.mp h]
    exact (toNat_ofNat_of_lt (by omega)).symm
  split at h
  · simp only [List.mem_cons, List.not_mem_nil, or_false] at h
    rcases h with h | h <;> exact absurd h (hlead (by omega) (by omega))
  split at h
  · simp only [List.mem_cons, List.not_mem_nil, or_false] at h
    rcases h with h | h | h <;> exact absurd h (hlead (by omega) (by omega))
  · simp only [List.mem_cons, List.not_mem_nil, or_false] at h
    rcases h with h | h | h | h <;> exact absurd h (hlead (by omega) (by omega))

theorem mem_of_mem_encode {text : String} {b : UInt8} (hb : b.toNat < 128) (h : b ∈ encode text) :
    Char.ofNat b.toNat ∈ text.toList := by
  obtain ⟨c, hc, hbyte⟩ := List.mem_flatMap.mp h
  rw [← toNat_of_mem_utf8EncodeChar hb hbyte, Char.ofNat_toNat]
  exact hc

end ToolNodes.Text.Utf8
