import ToolNodes.Proofs.Text.Utf8
import ToolNodes.Url.Percent

/-!
# Percent-encoding is undone by decoding

Decoding takes a percent sign and two digits back to the byte that they were written for, and any other
character to its own bytes. With a set that holds the percent sign no such sign is left as it was, so
what is encoded decodes to the bytes of the text (`percentDecode_percentEncode`).
-/

namespace ToolNodes.Url

/-! ## Bytes -/

theorem hexValue?_hexUpper : ∀ n < 16, hexValue? (hexUpper n) = some n := by decide

/-- A byte that is written with a percent sign is read back. -/
theorem percentDecodeFrom_encodeByte (b : UInt8) (rest : List Char) :
    percentDecodeFrom 0 (encodeByte b ++ rest) = b :: percentDecodeFrom 0 rest := by
  have hb : b.toNat < 256 := b.toNat_lt
  have hhigh := hexValue?_hexUpper (b.toNat / 16) (by omega)
  have hlow := hexValue?_hexUpper (b.toNat % 16) (by omega)
  have hvalue : UInt8.ofNat (b.toNat / 16 * 16 + b.toNat % 16) = b := by
    rw [Nat.div_add_mod', UInt8.ofNat_toNat]
  simp only [encodeByte, List.cons_append, List.nil_append, percentDecodeFrom, List.take_succ_cons,
    List.take_zero, List.map_cons, List.map_nil, hhigh, hlow, hvalue]

theorem percentDecodeFrom_encodeBytes (bytes : List UInt8) (rest : List Char) :
    percentDecodeFrom 0 (bytes.flatMap encodeByte ++ rest) = bytes ++ percentDecodeFrom 0 rest := by
  induction bytes with
  | nil => rfl
  | cons b bytes ih =>
      rw [List.flatMap_cons, List.append_assoc, percentDecodeFrom_encodeByte, ih, List.cons_append]

/-! ## Texts -/

theorem percentDecodeFrom_of_ne {c : Char} (h : c ≠ '%') (rest : List Char) :
    percentDecodeFrom 0 (c :: rest) = String.utf8EncodeChar c ++ percentDecodeFrom 0 rest := by
  rw [percentDecodeFrom]
  intro high low hc
  exact absurd hc h

/-- **What is encoded with a set that holds the percent sign decodes to the bytes of the text.** -/
theorem percentDecode_percentEncode {set : EncodeSet} (hset : set '%' = true) (s : List Char) :
    percentDecode (percentEncode set s) = Text.Utf8.encode (String.ofList s) := by
  rw [Text.Utf8.encode_ofList]
  unfold percentDecode percentEncode
  induction s with
  | nil => rfl
  | cons c s ih =>
      rw [List.flatMap_cons, List.flatMap_cons]
      split
      · rename_i hplain
        have hc : c ≠ '%' := by
          rintro rfl
          rw [hset] at hplain
          exact absurd hplain (by simp)
        rw [List.singleton_append, percentDecodeFrom_of_ne hc, ih]
      · rw [percentDecodeFrom_encodeBytes, ih]

end ToolNodes.Url
