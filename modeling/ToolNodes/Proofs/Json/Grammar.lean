import ToolNodes.Proofs.Json.Contents
import ToolNodes.Proofs.Json.Numbers
import ToolNodes.Proofs.Basic
import ToolNodes.Text.Words

/-!
# The grammar of JSON

What the six readers take from the front of a text are the phrases of one grammar (`Spells`), in which
blanks may stand in front of any phrase but the one behind an opening quote. A reader takes a text that
spells its phrase (`exists_spells`), and takes it whatever stands behind, as long as that does not go on
with a number (`readAs_of_spells`); a text never needs more fuel than it has pieces. So a text is read as a
value exactly if it spells the value, up to blanks behind it (`ofPieces_eq_ok_iff`).
-/

namespace ToolNodes.Json

open ToolNodes.Text

/-! ## Phrases -/

/-- What a reader takes from the front of a text. -/
inductive Phrase where
  | value (v : Json)
  /-- What stands behind an opening bracket, the closing one included. -/
  | items (vs : List Json)
  /-- What stands behind an item. -/
  | moreItems (vs : List Json)
  /-- What stands behind an opening brace, the closing one included. -/
  | members (ms : List (String × Json))
  /-- What stands behind a member. -/
  | moreMembers (ms : List (String × Json))
  /-- A member behind the opening quote of its key. -/
  | member (m : String × Json)

namespace Phrase

def Loose : Phrase → Prop
  | member _ => False
  | _ => True

/-- The reader of the phrase takes it from a text and leaves another. -/
def ReadAs (fuel depth : Nat) (s rest : List Piece) : Phrase → Prop
  | value v => Json.value fuel depth s = .ok (v, rest)
  | items vs => Json.items fuel depth s = .ok (vs, rest)
  | moreItems vs => Json.moreItems fuel depth s = .ok (vs, rest)
  | members ms => Json.members fuel depth s = .ok (ms, rest)
  | moreMembers ms => Json.moreMembers fuel depth s = .ok (ms, rest)
  | member m => Json.member fuel depth s = .ok (m, rest)

end Phrase

def literals : List (List Char × Json) :=
  [(['n', 'u', 'l', 'l'], .null), (['t', 'r', 'u', 'e'], .bool true),
    (['f', 'a', 'l', 's', 'e'], .bool false)]

/-- A text spells a phrase in which so many openers may nest. -/
inductive Spells : Nat → Phrase → List Piece → Prop
  | space {d : Nat} {ph : Phrase} {piece : Piece} {text : List Piece} (hspace : isSpace piece = true)
      (hloose : ph.Loose) (h : Spells d ph text) : Spells d ph (piece :: text)
  | literal {d : Nat} {word : List Char} {v : Json} (h : (word, v) ∈ literals) :
      Spells d (.value v) (word.map .scalar)
  | number {d : Nat} {text : List Piece} {n : Number} (h : Number.read false text = .ok (n, [])) :
      Spells d (.value (.number n)) text
  | negative {d : Nat} {text : List Piece} {n : Number} (h : Number.read true text = .ok (n, [])) :
      Spells d (.value (.number n)) (.scalar '-' :: text)
  | string {d : Nat} {text : List Piece} {t : String} (h : Contents text t.toList) :
      Spells d (.value (.string t)) (.scalar '"' :: text)
  | array {d : Nat} {text : List Piece} {vs : List Json} (h : Spells d (.items vs) text) :
      Spells (d + 1) (.value (.array vs)) (.scalar '[' :: text)
  | object {d : Nat} {text : List Piece} {ms : List (String × Json)}
      (h : Spells d (.members ms) text) :
      Spells (d + 1) (.value (.object (Entries.ofList ms))) (.scalar '{' :: text)
  | noItems {d : Nat} : Spells d (.items []) [.scalar ']']
  | items {d : Nat} {text behind : List Piece} {v : Json} {vs : List Json}
      (h : Spells d (.value v) text) (hmore : Spells d (.moreItems vs) behind) :
      Spells d (.items (v :: vs)) (text ++ behind)
  | endItems {d : Nat} : Spells d (.moreItems []) [.scalar ']']
  | nextItem {d : Nat} {text : List Piece} {v : Json} {vs : List Json}
      (h : Spells d (.items (v :: vs)) text) : Spells d (.moreItems (v :: vs)) (.scalar ',' :: text)
  | noMembers {d : Nat} : Spells d (.members []) [.scalar '}']
  | members {d : Nat} {text behind : List Piece} {m : String × Json} {ms : List (String × Json)}
      (h : Spells d (.member m) text) (hmore : Spells d (.moreMembers ms) behind) :
      Spells d (.members (m :: ms)) (.scalar '"' :: (text ++ behind))
  | endMembers {d : Nat} : Spells d (.moreMembers []) [.scalar '}']
  | nextMember {d : Nat} {text : List Piece} {m : String × Json} {ms : List (String × Json)}
      (h : Spells d (.members (m :: ms)) text) :
      Spells d (.moreMembers (m :: ms)) (.scalar ',' :: text)
  | member {d : Nat} {text gap behind : List Piece} {key : String} {v : Json}
      (hkey : Contents text key.toList) (hgap : ∀ piece ∈ gap, isSpace piece = true)
      (h : Spells d (.value v) behind) :
      Spells d (.member (key, v)) (text ++ (gap ++ .scalar ':' :: behind))

variable {fuel d : Nat} {s text gap rest : List Piece} {piece : Piece} {ph : Phrase}

/-! ## Blanks in front -/

theorem skipSpace_scalar {c : Char} (s : List Piece) (h : isSpace (.scalar c) = false) :
    skipSpace (.scalar c :: s) = .scalar c :: s :=
  List.dropWhile_cons_of_neg (by simp [h])

theorem skipSpace_space (h : isSpace piece = true) (s : List Piece) :
    skipSpace (piece :: s) = skipSpace s :=
  List.dropWhile_cons_of_pos h

theorem skipSpace_gap (h : ∀ piece ∈ gap, isSpace piece = true) (s : List Piece) :
    skipSpace (gap ++ s) = skipSpace s :=
  List.dropWhile_append_of_pos h

theorem exists_gap (s : List Piece) :
    ∃ gap, s = gap ++ skipSpace s ∧ ∀ piece ∈ gap, isSpace piece = true :=
  ⟨s.takeWhile isSpace, List.takeWhile_append_dropWhile.symm, fun _ h => List.mem_takeWhile_imp h⟩

theorem skipSpace_skipSpace (s : List Piece) : skipSpace (skipSpace s) = skipSpace s := by
  obtain ⟨gap, hs, hgap⟩ := exists_gap s
  conv_rhs => rw [hs]
  rw [skipSpace_gap hgap]

theorem Spells.behind_gap (h : Spells d ph text) (hloose : ph.Loose)
    (hgap : ∀ piece ∈ gap, isSpace piece = true) : Spells d ph (gap ++ text) := by
  induction gap with
  | nil => exact h
  | cons piece gap ih =>
      exact .space (hgap piece List.mem_cons_self) hloose
        (ih fun q hq => hgap q (List.mem_cons_of_mem _ hq))

/-- No reader does anything without fuel. -/
theorem not_readAs_zero : ¬ ph.ReadAs 0 d s rest := by
  cases ph <;> simp [Phrase.ReadAs, value, items, moreItems, members, moreMembers, member, failAt]

/-- Every reader but that of a member skips the blanks in front. -/
theorem readAs_skipSpace (hloose : ph.Loose) :
    ph.ReadAs fuel d (skipSpace s) rest ↔ ph.ReadAs fuel d s rest := by
  cases fuel with
  | zero => exact iff_of_false not_readAs_zero not_readAs_zero
  | succ fuel =>
      cases ph with
      | value v => simp only [Phrase.ReadAs, value, skipSpace_skipSpace]
      | items vs => simp only [Phrase.ReadAs, items, skipSpace_skipSpace]
      | moreItems vs => simp only [Phrase.ReadAs, moreItems, skipSpace_skipSpace]
      | members ms => simp only [Phrase.ReadAs, members, skipSpace_skipSpace]
      | moreMembers ms => simp only [Phrase.ReadAs, moreMembers, skipSpace_skipSpace]
      | member m => exact hloose.elim

/-! ## What is read is spelled -/

/-- A text starts with one that spells a phrase. -/
def Spelled (d : Nat) (ph : Phrase) (s rest : List Piece) : Prop :=
  ∃ text, s = text ++ rest ∧ Spells d ph text

theorem spelled_of_skipSpace (hloose : ph.Loose) (h : Spelled d ph (skipSpace s) rest) :
    Spelled d ph s rest := by
  obtain ⟨text, hs, hspells⟩ := h
  obtain ⟨gap, hgap, hspaces⟩ := exists_gap s
  refine ⟨gap ++ text, ?_, hspells.behind_gap hloose hspaces⟩
  rw [List.append_assoc, ← hs]
  exact hgap

theorem literal_eq_ok {α : Type} {a b : α} {word : List Char}
    (h : literal a word s = .ok (b, rest)) : b = a ∧ s = word.map .scalar ++ rest := by
  induction word generalizing s with
  | nil =>
      obtain ⟨rfl, rfl⟩ := Prod.mk.inj (Except.ok.inj h)
      exact ⟨rfl, rfl⟩
  | cons c word ih =>
      cases s with
      | nil => exact absurd h (by simp [literal, failAt])
      | cons piece s =>
          rw [literal] at h
          split at h
          · rename_i hpiece
            obtain ⟨rfl, rfl⟩ := ih h
            rw [hpiece]
            exact ⟨rfl, rfl⟩
          · exact absurd h (by simp [failPast])

theorem spelled_literal {c : Char} {word : List Char} {v w : Json}
    (hword : (c :: word, v) ∈ literals) (h : literal v word s = .ok (w, rest)) :
    Spelled d (.value w) (.scalar c :: s) rest := by
  obtain ⟨rfl, rfl⟩ := literal_eq_ok h
  exact ⟨_, rfl, Spells.literal hword⟩

section Steps

-- What is read with less fuel is spelled.
variable (ih : ∀ (ph : Phrase) {d : Nat} {s rest : List Piece},
  ph.ReadAs fuel d s rest → Spelled d ph s rest)

include ih

theorem spelled_value {v : Json} (h : value (fuel + 1) d s = .ok (v, rest)) :
    Spelled d (.value v) s rest := by
  refine spelled_of_skipSpace (by trivial) ?_
  rw [value] at h
  split at h
  · exact absurd h (by simp [failAt])
  · exact absurd h (by simp [failPast])
  · rename_i c behind hs
    rw [hs]
    split at h
    · rename_i hc
      rw [hc]
      exact spelled_literal (by simp [literals]) h
    split at h
    · rename_i hc
      rw [hc]
      exact spelled_literal (by simp [literals]) h
    split at h
    · rename_i hc
      rw [hc]
      exact spelled_literal (by simp [literals]) h
    split at h
    · rename_i hc
      obtain ⟨⟨n, end'⟩, hread, hpair⟩ := ok_of_map h
      obtain ⟨rfl, rfl⟩ := Prod.mk.inj hpair
      obtain ⟨digit, text, rfl, -, -, hsame⟩ := Number.exists_read hread
      rw [hc]
      refine ⟨.scalar '-' :: (digit :: text), rfl, Spells.negative ?_⟩
      simpa using hsame [] stops_nil
    split at h
    · obtain ⟨⟨n, end'⟩, hread, hpair⟩ := ok_of_map h
      obtain ⟨rfl, rfl⟩ := Prod.mk.inj hpair
      obtain ⟨digit, text, htext, -, -, hsame⟩ := Number.exists_read hread
      refine ⟨digit :: text, htext, Spells.number ?_⟩
      simpa using hsame [] stops_nil
    split at h
    · rename_i hc
      obtain ⟨⟨t, end'⟩, hread, hpair⟩ := ok_of_map h
      obtain ⟨rfl, rfl⟩ := Prod.mk.inj hpair
      obtain ⟨text, rfl, hcontents⟩ := exists_contents hread
      rw [hc]
      exact ⟨_, rfl, Spells.string hcontents⟩
    split at h
    · rename_i hc
      split at h
      · exact absurd h (by simp [failPast])
      · obtain ⟨⟨vs, end'⟩, hread, hpair⟩ := ok_of_map h
        obtain ⟨rfl, rfl⟩ := Prod.mk.inj hpair
        obtain ⟨text, rfl, hspells⟩ := ih (.items vs) hread
        rw [hc]
        exact ⟨_, rfl, Spells.array hspells⟩
    split at h
    · rename_i hc
      split at h
      · exact absurd h (by simp [failPast])
      · obtain ⟨⟨ms, end'⟩, hread, hpair⟩ := ok_of_map h
        obtain ⟨rfl, rfl⟩ := Prod.mk.inj hpair
        obtain ⟨text, rfl, hspells⟩ := ih (.members ms) hread
        rw [hc]
        exact ⟨_, rfl, Spells.object hspells⟩
    · exact absurd h (by simp [failPast])

theorem spelled_items {vs : List Json} (h : items (fuel + 1) d s = .ok (vs, rest)) :
    Spelled d (.items vs) s rest := by
  refine spelled_of_skipSpace (by trivial) ?_
  rw [items] at h
  split at h
  · exact absurd h (by simp [failAt])
  · rename_i hs
    obtain ⟨rfl, rfl⟩ := Prod.mk.inj (Except.ok.inj h)
    rw [hs]
    exact ⟨_, rfl, Spells.noItems⟩
  · obtain ⟨⟨v, behind⟩, hfirst, h⟩ := ok_of_bind h
    obtain ⟨⟨vs', end'⟩, hmore, h⟩ := ok_of_bind h
    obtain ⟨rfl, rfl⟩ := Prod.mk.inj (Except.ok.inj h)
    obtain ⟨text, hs, hspells⟩ := ih (.value v) hfirst
    obtain ⟨more, rfl, hspells'⟩ := ih (.moreItems vs') hmore
    refine ⟨text ++ more, ?_, Spells.items hspells hspells'⟩
    rw [hs, List.append_assoc]

theorem spelled_moreItems {vs : List Json} (h : moreItems (fuel + 1) d s = .ok (vs, rest)) :
    Spelled d (.moreItems vs) s rest := by
  refine spelled_of_skipSpace (by trivial) ?_
  rw [moreItems] at h
  split at h
  · exact absurd h (by simp [failAt])
  · rename_i hs
    obtain ⟨rfl, rfl⟩ := Prod.mk.inj (Except.ok.inj h)
    rw [hs]
    exact ⟨_, rfl, Spells.endItems⟩
  · rename_i behind hs
    rw [hs]
    split at h
    · exact absurd h (by simp [failAt])
    · exact absurd h (by simp [failPast])
    · obtain ⟨⟨v, behind'⟩, hfirst, h⟩ := ok_of_bind h
      obtain ⟨⟨vs', end'⟩, hmore, h⟩ := ok_of_bind h
      obtain ⟨rfl, rfl⟩ := Prod.mk.inj (Except.ok.inj h)
      obtain ⟨text, htext, hspells⟩ := ih (.value v) hfirst
      obtain ⟨more, rfl, hspells'⟩ := ih (.moreItems vs') hmore
      obtain ⟨gap, hgap, hspaces⟩ := exists_gap behind
      refine ⟨.scalar ',' :: (gap ++ (text ++ more)), ?_, Spells.nextItem
        ((Spells.items hspells hspells').behind_gap (by trivial) hspaces)⟩
      rw [hgap, htext]
      simp
  · exact absurd h (by simp [failPast])

theorem spelled_members {ms : List (String × Json)}
    (h : members (fuel + 1) d s = .ok (ms, rest)) : Spelled d (.members ms) s rest := by
  refine spelled_of_skipSpace (by trivial) ?_
  rw [members] at h
  split at h
  · exact absurd h (by simp [failAt])
  · rename_i hs
    obtain ⟨rfl, rfl⟩ := Prod.mk.inj (Except.ok.inj h)
    rw [hs]
    exact ⟨_, rfl, Spells.noMembers⟩
  · rename_i behind hs
    obtain ⟨⟨m, behind'⟩, hfirst, h⟩ := ok_of_bind h
    obtain ⟨⟨ms', end'⟩, hmore, h⟩ := ok_of_bind h
    obtain ⟨rfl, rfl⟩ := Prod.mk.inj (Except.ok.inj h)
    obtain ⟨text, rfl, hspells⟩ := ih (.member m) hfirst
    obtain ⟨more, rfl, hspells'⟩ := ih (.moreMembers ms') hmore
    rw [hs]
    refine ⟨.scalar '"' :: (text ++ more), ?_, Spells.members hspells hspells'⟩
    rw [List.cons_append, List.append_assoc]
  · exact absurd h (by simp [failPast])

theorem spelled_moreMembers {ms : List (String × Json)}
    (h : moreMembers (fuel + 1) d s = .ok (ms, rest)) : Spelled d (.moreMembers ms) s rest := by
  refine spelled_of_skipSpace (by trivial) ?_
  rw [moreMembers] at h
  split at h
  · exact absurd h (by simp [failAt])
  · rename_i hs
    obtain ⟨rfl, rfl⟩ := Prod.mk.inj (Except.ok.inj h)
    rw [hs]
    exact ⟨_, rfl, Spells.endMembers⟩
  · rename_i behind hs
    rw [hs]
    split at h
    · exact absurd h (by simp [failAt])
    · exact absurd h (by simp [failPast])
    · rename_i behind' hs'
      obtain ⟨⟨m, behind''⟩, hfirst, h⟩ := ok_of_bind h
      obtain ⟨⟨ms', end'⟩, hmore, h⟩ := ok_of_bind h
      obtain ⟨rfl, rfl⟩ := Prod.mk.inj (Except.ok.inj h)
      obtain ⟨text, rfl, hspells⟩ := ih (.member m) hfirst
      obtain ⟨more, rfl, hspells'⟩ := ih (.moreMembers ms') hmore
      obtain ⟨gap, hgap, hspaces⟩ := exists_gap behind
      refine ⟨.scalar ',' :: (gap ++ .scalar '"' :: (text ++ more)), ?_, Spells.nextMember
        ((Spells.members hspells hspells').behind_gap (by trivial) hspaces)⟩
      rw [hgap, hs']
      simp
    · exact absurd h (by simp [failPast])
  · exact absurd h (by simp [failPast])

theorem spelled_member {m : String × Json} (h : member (fuel + 1) d s = .ok (m, rest)) :
    Spelled d (.member m) s rest := by
  rw [member] at h
  obtain ⟨⟨key, behind⟩, hkey, hbehind⟩ := ok_of_bind h
  obtain ⟨text, rfl, hcontents⟩ := exists_contents hkey
  simp only at hbehind
  split at hbehind
  · exact absurd hbehind (by simp [failAt])
  · rename_i behind' hs
    obtain ⟨⟨v, end'⟩, hvalue, hpair⟩ := ok_of_bind hbehind
    obtain ⟨rfl, rfl⟩ := Prod.mk.inj (Except.ok.inj hpair)
    obtain ⟨text', rfl, hspells⟩ := ih (.value v) hvalue
    obtain ⟨gap, hgap, hspaces⟩ := exists_gap behind
    refine ⟨text ++ (gap ++ .scalar ':' :: text'), ?_, Spells.member hcontents hspaces hspells⟩
    rw [hgap, hs]
    simp
  · exact absurd hbehind (by simp [failPast])

end Steps

/-- **What a reader takes spells its phrase.** -/
theorem exists_spells (h : ph.ReadAs fuel d s rest) : Spelled d ph s rest := by
  induction fuel generalizing ph d s rest with
  | zero => exact absurd h not_readAs_zero
  | succ fuel ih =>
      have ih' : ∀ (ph : Phrase) {d : Nat} {s rest : List Piece},
          ph.ReadAs fuel d s rest → Spelled d ph s rest := fun _ _ _ _ h => ih h
      cases ph with
      | value v => exact spelled_value ih' h
      | items vs => exact spelled_items ih' h
      | moreItems vs => exact spelled_moreItems ih' h
      | members ms => exact spelled_members ih' h
      | moreMembers ms => exact spelled_moreMembers ih' h
      | member m => exact spelled_member ih' h

/-! ## Where phrases begin and end -/

/-- The piece is a blank character, of Unicode and not only of JSON. -/
def isBlankPiece (piece : Piece) : Bool := piece.char?.any isBlank

theorem isBlankPiece_of_isSpace (h : isSpace piece = true) : isBlankPiece piece = true := by
  simp only [isSpace, Bool.or_eq_true, decide_eq_true_eq] at h
  rcases h with ((rfl | rfl) | rfl) | rfl
  all_goals decide

def EndsSolid (text : List Piece) : Prop :=
  ∃ front piece, text = front ++ [piece] ∧ isBlankPiece piece = false

theorem EndsSolid.ne_nil (h : EndsSolid text) : text ≠ [] := by
  obtain ⟨front, piece, rfl, -⟩ := h
  exact List.concat_ne_nil piece front

theorem EndsSolid.append (h : EndsSolid text) (front : List Piece) : EndsSolid (front ++ text) := by
  obtain ⟨front', piece, rfl, hpiece⟩ := h
  exact ⟨front ++ front', piece, (List.append_assoc _ _ _).symm, hpiece⟩

theorem endsSolid_of_forall (hne : text ≠ []) (h : ∀ piece ∈ text, isBlankPiece piece = false) :
    EndsSolid text :=
  ⟨text.dropLast, text.getLast hne, (List.dropLast_append_getLast hne).symm,
    h _ (List.getLast_mem hne)⟩

/-- A character of ASCII above the space is no blank. -/
theorem isBlank_eq_false {c : Char} (hlow : 0x20 < c.toNat) (hhigh : c.toNat < 0x80) :
    isBlank c = false := by
  simp [isBlank, blanks, CharClass.contains]
  omega

theorem isBlankPiece_of_numeric (h : Numeric piece) : isBlankPiece piece = false := by
  cases piece with
  | malformed bytes => rfl
  | scalar c =>
      rcases h with (hdigit | hchar | hchar | hchar) | hchar | hchar
      · have hc : c.isDigit = true := by
          by_contra hnot
          exact Number.not_isDigit_of_scalar (by simpa using hnot) hdigit
        simp only [Char.isDigit, Bool.and_eq_true, decide_eq_true_eq, ge_iff_le,
          UInt32.le_iff_toNat_le] at hc
        have hlow : 48 ≤ c.toNat := hc.1
        have hhigh : c.toNat ≤ 57 := hc.2
        exact isBlank_eq_false (by omega) (by omega)
      all_goals
        obtain rfl := Piece.scalar.inj hchar
        decide

theorem solid_of_literals :
    ∀ entry ∈ literals, entry.1 ≠ [] ∧ ∀ c ∈ entry.1, isBlankPiece (.scalar c) = false := by
  have h : literals.all (fun entry =>
      entry.1 ≠ [] && entry.1.all fun c => !isBlankPiece (.scalar c)) = true := by decide
  simpa only [List.all_eq_true, Bool.and_eq_true, decide_eq_true_eq, Bool.not_eq_true'] using h

theorem Contents.endsSolid {cs : List Char} (h : Contents text cs) : EndsSolid text := by
  induction h with
  | close => exact ⟨[], _, rfl, by decide⟩
  | plain _ _ _ _ ih => exact ih.append [_]
  | escape _ _ ih => exact ih.append (.scalar '\\' :: _)

theorem endsSolid_of_read {negative : Bool} {n : Number}
    (h : Number.read negative text = .ok (n, [])) : EndsSolid text := by
  obtain ⟨hne, hnumeric⟩ := Number.numeric_of_read h
  exact endsSolid_of_forall hne fun piece hpiece => isBlankPiece_of_numeric (hnumeric piece hpiece)

theorem Spells.endsSolid (h : Spells d ph text) : EndsSolid text := by
  induction h with
  | space _ _ _ ih => exact ih.append [_]
  | literal h =>
      obtain ⟨hne, hsolid⟩ := solid_of_literals _ h
      apply endsSolid_of_forall
      · simpa using hne
      · simpa using hsolid
  | number h => exact endsSolid_of_read h
  | negative h => exact (endsSolid_of_read h).append [_]
  | string h => exact h.endsSolid.append [_]
  | array _ ih => exact ih.append [_]
  | object _ ih => exact ih.append [_]
  | noItems => exact ⟨[], _, rfl, by decide⟩
  | items _ _ _ ihmore => exact ihmore.append _
  | endItems => exact ⟨[], _, rfl, by decide⟩
  | nextItem _ ih => exact ih.append [_]
  | noMembers => exact ⟨[], _, rfl, by decide⟩
  | members _ _ _ ihmore => exact ihmore.append (.scalar '"' :: _)
  | endMembers => exact ⟨[], _, rfl, by decide⟩
  | nextMember _ ih => exact ih.append [_]
  | member _ _ _ ih => exact ((ih.append [_]).append _).append _

/-- A value begins with a blank of JSON or with no blank at all. -/
theorem Spells.head {v : Json} (h : Spells d (.value v) text) :
    ∃ piece behind, text = piece :: behind ∧ (isSpace piece = true ∨ isBlankPiece piece = false) := by
  cases h with
  | space hspace _ _ => exact ⟨_, _, rfl, Or.inl hspace⟩
  | literal h =>
      obtain ⟨hne, hsolid⟩ := solid_of_literals _ h
      obtain ⟨c, word, rfl⟩ := List.exists_cons_of_ne_nil hne
      exact ⟨_, _, rfl, Or.inr (hsolid c List.mem_cons_self)⟩
  | number h =>
      obtain ⟨hne, hnumeric⟩ := Number.numeric_of_read h
      obtain ⟨digit, text, rfl⟩ := List.exists_cons_of_ne_nil hne
      exact ⟨_, _, rfl, Or.inr (isBlankPiece_of_numeric (hnumeric digit List.mem_cons_self))⟩
  | negative _ => exact ⟨_, _, rfl, Or.inr (by decide)⟩
  | string _ => exact ⟨_, _, rfl, Or.inr (by decide)⟩
  | array _ => exact ⟨_, _, rfl, Or.inr (by decide)⟩
  | object _ => exact ⟨_, _, rfl, Or.inr (by decide)⟩

/-! ## What is spelled is read -/

theorem not_goesOn_of_isSpace (h : isSpace piece = true) : ¬ GoesOn piece := by
  intro hgoes
  have hsolid := isBlankPiece_of_numeric (Or.inl hgoes)
  rw [isBlankPiece_of_isSpace h] at hsolid
  exact absurd hsolid (by simp)

/-- What stands behind an item or a member does not go on with a number. -/
theorem Spells.stops (h : Spells d ph text)
    (hph : (∃ vs, ph = .moreItems vs) ∨ ∃ ms, ph = .moreMembers ms) (rest : List Piece) :
    Stops (text ++ rest) := by
  have hhead : ∃ piece behind, text = piece :: behind ∧ ¬ GoesOn piece := by
    rcases hph with ⟨vs, rfl⟩ | ⟨ms, rfl⟩
    · cases h with
      | space hspace _ _ => exact ⟨_, _, rfl, not_goesOn_of_isSpace hspace⟩
      | endItems => exact ⟨_, _, rfl, by decide⟩
      | nextItem _ => exact ⟨_, _, rfl, by decide⟩
    · cases h with
      | space hspace _ _ => exact ⟨_, _, rfl, not_goesOn_of_isSpace hspace⟩
      | endMembers => exact ⟨_, _, rfl, by decide⟩
      | nextMember _ => exact ⟨_, _, rfl, by decide⟩
  obtain ⟨piece, behind, rfl, hpiece⟩ := hhead
  intro q hq
  rw [← Option.some.inj hq]
  exact hpiece

theorem literal_self {α : Type} (a : α) (word : List Char) (rest : List Piece) :
    literal a word (word.map .scalar ++ rest) = .ok (a, rest) := by
  induction word with
  | nil => rfl
  | cons c cs ih => simp [literal, ih]

theorem literal_append {word : List Char} {v : Json} (h : (word, v) ∈ literals) :
    value (fuel + 1) d (word.map .scalar ++ rest) = .ok (v, rest) := by
  simp only [literals, List.mem_cons, List.not_mem_nil, or_false, Prod.mk.injEq] at h
  rcases h with ⟨rfl, rfl⟩ | ⟨rfl, rfl⟩ | ⟨rfl, rfl⟩
  · rw [value, List.map_cons, List.cons_append, skipSpace_scalar _ (by decide)]
    exact literal_self Json.null ['u', 'l', 'l'] rest
  · rw [value, List.map_cons, List.cons_append, skipSpace_scalar _ (by decide)]
    exact literal_self (Json.bool true) ['r', 'u', 'e'] rest
  · rw [value, List.map_cons, List.cons_append, skipSpace_scalar _ (by decide)]
    exact literal_self (Json.bool false) ['a', 'l', 's', 'e'] rest

theorem number_append {n : Number} (h : Number.read false text = .ok (n, [])) (hrest : Stops rest) :
    value (fuel + 1) d (text ++ rest) = .ok (.number n, rest) := by
  have hread := Number.read_append h hrest
  obtain ⟨c, behind, rfl, hc⟩ := Number.exists_scalar_of_read h
  have hne : ∀ x : Char, x.isDigit = false → c ≠ x := by
    rintro x hx rfl
    rw [hc] at hx
    exact absurd hx (by simp)
  have hspace : isSpace (.scalar c) = false := by
    simp [isSpace, hne ' ' rfl, hne '\t' rfl, hne '\n' rfl, hne '\r' rfl]
  rw [value, List.cons_append, skipSpace_scalar _ hspace]
  simp only
  rw [if_neg (hne 'n' rfl), if_neg (hne 't' rfl), if_neg (hne 'f' rfl), if_neg (hne '-' rfl),
    if_pos hc, ← List.cons_append, hread]
  rfl

theorem negative_append {n : Number} (h : Number.read true text = .ok (n, [])) (hrest : Stops rest) :
    value (fuel + 1) d (.scalar '-' :: text ++ rest) = .ok (.number n, rest) := by
  rw [value, List.cons_append, skipSpace_scalar _ (by decide)]
  simp [Number.read_append h hrest, Except.map]

/-- A value is neither nothing nor a closing bracket. -/
theorem exists_head_of_value {v : Json} (h : value fuel d s = .ok (v, rest)) :
    ∃ piece behind, skipSpace s = piece :: behind ∧ piece ≠ .scalar ']' := by
  have hread : (Phrase.value v).ReadAs fuel d s rest := h
  cases fuel with
  | zero => exact absurd hread not_readAs_zero
  | succ fuel =>
      cases hs : skipSpace s with
      | nil =>
          rw [value, hs] at h
          exact absurd h (by simp [failAt])
      | cons piece behind =>
          refine ⟨piece, behind, rfl, ?_⟩
          rintro rfl
          rw [value, hs] at h
          exact absurd h (by simp [failPast])

theorem items_close (fuel depth : Nat) (rest : List Piece) :
    items (fuel + 1) depth (.scalar ']' :: rest) = .ok ([], rest) := by
  rw [items, skipSpace_scalar _ (by decide)]
  rfl

theorem items_of_value {v : Json} {vs : List Json} {behind : List Piece}
    (hvalue : value fuel d s = .ok (v, behind)) (hmore : moreItems fuel d behind = .ok (vs, rest)) :
    items (fuel + 1) d s = .ok (v :: vs, rest) := by
  have hread : (Phrase.value v).ReadAs fuel d s behind := hvalue
  have hskip : value fuel d (skipSpace s) = .ok (v, behind) :=
    (readAs_skipSpace (by trivial)).mpr hread
  obtain ⟨piece, behind', hs, hpiece⟩ := exists_head_of_value hvalue
  rw [items]
  rw [hs] at hskip ⊢
  split
  · contradiction
  · rename_i heq
    exact absurd (List.cons.inj heq).1 hpiece
  · simp only [hskip, hmore, bind, Except.bind]

/-- Behind a comma there are items as behind an opening bracket, but for none. -/
theorem moreItems_of_items {v : Json} {vs : List Json} (h : items (fuel + 1) d s = .ok (v :: vs, rest)) :
    moreItems (fuel + 1) d (.scalar ',' :: s) = .ok (v :: vs, rest) := by
  rw [items] at h
  rw [moreItems, skipSpace_scalar _ (by decide)]
  simp only
  split at h
  · exact absurd h (by simp [failAt])
  · exact absurd h (by simp)
  · exact h

theorem members_close (fuel depth : Nat) (rest : List Piece) :
    members (fuel + 1) depth (.scalar '}' :: rest) = .ok ([], rest) := by
  rw [members, skipSpace_scalar _ (by decide)]
  rfl

theorem members_of_member {m : String × Json} {ms : List (String × Json)} {behind : List Piece}
    (hmember : member fuel d s = .ok (m, behind))
    (hmore : moreMembers fuel d behind = .ok (ms, rest)) :
    members (fuel + 1) d (.scalar '"' :: s) = .ok (m :: ms, rest) := by
  rw [members, skipSpace_scalar _ (by decide)]
  simp only [hmember, hmore, bind, Except.bind]

/-- Behind a comma there are members as behind an opening brace, but for none. -/
theorem moreMembers_of_members {m : String × Json} {ms : List (String × Json)}
    (h : members (fuel + 1) d s = .ok (m :: ms, rest)) :
    moreMembers (fuel + 1) d (.scalar ',' :: s) = .ok (m :: ms, rest) := by
  rw [members] at h
  rw [moreMembers, skipSpace_scalar _ (by decide)]
  simp only
  split at h
  · exact absurd h (by simp [failAt])
  · exact absurd h (by simp)
  · exact h
  · exact absurd h (by simp [failPast])

theorem member_of_value {key : String} {v : Json} {behind : List Piece}
    (hkey : Contents text key.toList) (hgap : ∀ piece ∈ gap, isSpace piece = true)
    (hvalue : value fuel d behind = .ok (v, rest)) :
    member (fuel + 1) d (text ++ (gap ++ .scalar ':' :: behind)) = .ok ((key, v), rest) := by
  rw [member, stringBody_of_contents hkey]
  simp only [bind, Except.bind]
  rw [skipSpace_gap hgap, skipSpace_scalar _ (by decide)]
  simp only [hvalue, String.ofList_toList]

theorem Spells.length_pos (h : Spells d ph text) : 0 < text.length :=
  List.length_pos_iff.mpr h.endsSolid.ne_nil

/-- Reading takes fuel, and a phrase has at least one piece to pay for it. -/
theorem exists_fuel (h : Spells d ph text) (hfuel : text.length ≤ fuel) : ∃ f, fuel = f + 1 :=
  Nat.exists_eq_add_one.mpr (Nat.lt_of_lt_of_le h.length_pos hfuel)

theorem readAs_succ (h : Spells d ph text) (hfuel : text.length ≤ fuel + 1) (hrest : Stops rest) :
    ph.ReadAs (fuel + 1) d (text ++ rest) rest := by
  induction h generalizing fuel rest with
  | space hspace hloose h ih =>
      rw [← readAs_skipSpace hloose, List.cons_append, skipSpace_space hspace, readAs_skipSpace hloose]
      exact ih (Nat.le_of_succ_le hfuel) hrest
  | literal h => exact literal_append h
  | number h => exact number_append h hrest
  | negative h => exact negative_append h hrest
  | string h =>
      show value _ _ _ = _
      rw [value, List.cons_append, skipSpace_scalar _ (by decide)]
      simp [stringBody_of_contents h, Except.map]
  | array h ih =>
      obtain ⟨fuel, rfl⟩ := exists_fuel h (Nat.le_of_succ_le_succ hfuel)
      have hitems : items _ _ _ = _ := ih (Nat.le_of_succ_le_succ hfuel) hrest
      show value _ _ _ = _
      rw [value, List.cons_append, skipSpace_scalar _ (by decide)]
      simp [hitems, Except.map]
  | object h ih =>
      obtain ⟨fuel, rfl⟩ := exists_fuel h (Nat.le_of_succ_le_succ hfuel)
      have hmembers : members _ _ _ = _ := ih (Nat.le_of_succ_le_succ hfuel) hrest
      show value _ _ _ = _
      rw [value, List.cons_append, skipSpace_scalar _ (by decide)]
      simp [hmembers, Except.map]
  | noItems => exact items_close _ _ rest
  | items h hmore ih ihmore =>
      have hpos := h.length_pos
      have hpos' := hmore.length_pos
      rw [List.length_append] at hfuel
      obtain ⟨fuel, rfl⟩ : ∃ f, fuel = f + 1 := exists_fuel h (by omega)
      rw [List.append_assoc]
      exact items_of_value (ih (by omega) (hmore.stops (Or.inl ⟨_, rfl⟩) rest))
        (ihmore (by omega) hrest)
  | endItems =>
      show moreItems _ _ _ = _
      rw [moreItems, List.singleton_append, skipSpace_scalar _ (by decide)]
      rfl
  | nextItem h ih => exact moreItems_of_items (ih (Nat.le_of_succ_le hfuel) hrest)
  | noMembers => exact members_close _ _ rest
  | members h hmore ih ihmore =>
      rw [List.length_cons, List.length_append] at hfuel
      obtain ⟨fuel, rfl⟩ : ∃ f, fuel = f + 1 := exists_fuel h (by omega)
      rw [List.cons_append, List.append_assoc]
      exact members_of_member (ih (by omega) (hmore.stops (Or.inr ⟨_, rfl⟩) rest))
        (ihmore (by omega) hrest)
  | endMembers =>
      show moreMembers _ _ _ = _
      rw [moreMembers, List.singleton_append, skipSpace_scalar _ (by decide)]
      rfl
  | nextMember h ih => exact moreMembers_of_members (ih (Nat.le_of_succ_le hfuel) hrest)
  | member hkey hgap h ih =>
      simp only [List.length_append, List.length_cons] at hfuel
      obtain ⟨fuel, rfl⟩ : ∃ f, fuel = f + 1 := exists_fuel h (by omega)
      rw [List.append_assoc, List.append_assoc, List.cons_append]
      exact member_of_value hkey hgap (ih (by omega) hrest)

/-- **What spells a phrase is read as it**, with as much fuel as it has pieces, whatever stands behind it
that does not go on with a number. -/
theorem readAs_of_spells (h : Spells d ph text) (hfuel : text.length ≤ fuel) (hrest : Stops rest) :
    ph.ReadAs fuel d (text ++ rest) rest := by
  obtain ⟨fuel, rfl⟩ := exists_fuel h hfuel
  exact readAs_succ h hfuel hrest

/-- Without the blanks in front a text spells the same. -/
theorem Spells.skipSpace (h : Spells d ph text) (hloose : ph.Loose) :
    Spells d ph (Json.skipSpace text) := by
  have hread := readAs_of_spells h (Nat.le_refl _) stops_nil
  rw [List.append_nil, ← readAs_skipSpace hloose] at hread
  obtain ⟨text', htext, hspells⟩ := exists_spells hread
  rw [List.append_nil] at htext
  rw [htext]
  exact hspells

/-! ## Texts -/

theorem skipSpace_eq_nil_iff : skipSpace s = [] ↔ ∀ piece ∈ s, isSpace piece = true :=
  List.dropWhile_eq_nil_iff

theorem stops_of_forall_isSpace (h : ∀ piece ∈ s, isSpace piece = true) : Stops s := by
  intro piece hpiece
  exact not_goesOn_of_isSpace (h piece (List.mem_of_mem_head? hpiece))

theorem readPieces_eq_ok_iff {v : Json} :
    readPieces s = .ok v ↔ ∃ text gap, s = text ++ gap ∧ Spells maxDepth (.value v) text ∧
      ∀ piece ∈ gap, isSpace piece = true := by
  constructor
  · intro h
    obtain ⟨⟨w, rest⟩, hvalue, h⟩ := ok_of_bind h
    simp only at h
    split at h
    · rename_i hrest
      obtain rfl := Except.ok.inj h
      have hread : (Phrase.value w).ReadAs (valueFuel s) maxDepth s rest := hvalue
      obtain ⟨text, hs, hspells⟩ := exists_spells hread
      exact ⟨text, rest, hs, hspells, skipSpace_eq_nil_iff.mp hrest⟩
    · exact absurd h (by simp)
  · rintro ⟨text, gap, rfl, hspells, hgap⟩
    have hfuel : text.length ≤ valueFuel (text ++ gap) := by
      unfold valueFuel
      rw [List.length_append]
      omega
    have hvalue : value _ _ _ = _ := readAs_of_spells hspells hfuel (stops_of_forall_isSpace hgap)
    unfold readPieces
    rw [hvalue]
    simp only [bind, Except.bind, skipSpace_eq_nil_iff.mpr hgap]

/-- **A text is read as a value exactly if it spells the value, up to blanks behind it.** -/
theorem ofPieces_eq_ok_iff {v : Json} :
    ofPieces s = .ok v ↔ ∃ text gap, s = text ++ gap ∧ Spells maxDepth (.value v) text ∧
      ∀ piece ∈ gap, isSpace piece = true := by
  rw [← readPieces_eq_ok_iff]
  unfold ofPieces
  cases readPieces s with
  | error failure => simp [Except.mapError]
  | ok w => simp [Except.mapError]

end ToolNodes.Json
