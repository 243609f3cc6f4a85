import ToolNodes.Proofs.Json.Grammar
import ToolNodes.Proofs.Text.Words

/-!
# Strings and brackets of a text

Of a JSON text it is enough here to know what of it stands in strings and how deep in brackets: `Scan` goes
over a text and keeps just that. A text that spells a value is complete on its own, and leaves any open
brackets as they are (`Spells.nests`). With a string left open in front of it, what was in strings is
outside and what was outside is in strings, up to the end (`Flipped`), so it ends in a string. So whatever
a word behind which a blank stands has opened, a JSON text behind it does not close
(`not_complete_of_word`).
-/

namespace ToolNodes.Json

open ToolNodes.Text

/-! ## Scanning -/

/-- What a piece is to strings and brackets. -/
inductive Mark where
  | blank
  | quote
  | backslash
  | opener
  | closer
  | other
deriving DecidableEq

def mark (piece : Piece) : Mark :=
  if isBlankPiece piece then .blank
  else if piece = .scalar '"' then .quote
  else if piece = .scalar '\\' then .backslash
  else if piece = .scalar '[' || piece = .scalar '{' then .opener
  else if piece = .scalar ']' || piece = .scalar '}' then .closer
  else .other

/-- Where a text has come to. -/
inductive Scan where
  /-- There was nothing but blanks. -/
  | start
  /-- In a word outside of any brackets. -/
  | word
  /-- Behind a value. -/
  | done
  /-- In so many brackets and one more. -/
  | nested (depth : Nat)
  /-- In a string that stands in so many brackets. -/
  | inside (depth : Nat)
  /-- Behind a backslash in such a string. -/
  | escaped (depth : Nat)
  /-- No value starts like this. -/
  | stuck

namespace Scan

/-- Behind a string or a closing bracket that stands in so many brackets. -/
def under : Nat → Scan
  | 0 => done
  | depth + 1 => nested depth

def step : Scan → Mark → Scan
  | start, .blank => start
  | start, .quote => inside 0
  | start, .opener => nested 0
  | start, .other => word
  | word, .blank => done
  | word, .other => word
  | done, .blank => done
  | nested depth, .quote => inside (depth + 1)
  | nested depth, .opener => nested (depth + 1)
  | nested depth, .closer => under depth
  | nested depth, .blank => nested depth
  | nested depth, .other => nested depth
  | inside depth, .quote => under depth
  | inside depth, .backslash => escaped depth
  | inside depth, _ => inside depth
  | escaped depth, _ => inside depth
  | _, _ => stuck

def run (q : Scan) (s : List Piece) : Scan := s.foldl (fun q piece => q.step (mark piece)) q

def Complete : Scan → Prop
  | word => True
  | done => True
  | _ => False

variable {q : Scan} {s text : List Piece} {piece : Piece} {depth : Nat}

@[simp] theorem run_nil (q : Scan) : q.run [] = q := rfl

@[simp] theorem run_cons (q : Scan) (piece : Piece) (s : List Piece) :
    q.run (piece :: s) = (q.step (mark piece)).run s := rfl

@[simp] theorem run_append (q : Scan) (s t : List Piece) : q.run (s ++ t) = (q.run s).run t :=
  List.foldl_append

theorem run_stuck (s : List Piece) : stuck.run s = stuck := by
  induction s with
  | nil => rfl
  | cons piece s ih =>
      rw [run_cons]
      cases mark piece <;> exact ih

/-! ## Marks -/

theorem mark_of_blank (h : isBlankPiece piece = true) : mark piece = .blank := by
  unfold mark
  rw [if_pos h]

theorem mark_ne_blank (h : isBlankPiece piece = false) : mark piece ≠ .blank := by
  unfold mark
  rw [if_neg (by simp [h])]
  split_ifs <;> simp

theorem eq_of_mark_quote (h : mark piece = .quote) : piece = .scalar '"' := by
  unfold mark at h
  split_ifs at h with _ hquote
  · exact hquote

theorem eq_of_mark_backslash (h : mark piece = .backslash) : piece = .scalar '\\' := by
  unfold mark at h
  split_ifs at h with _ _ hbackslash
  · exact hbackslash

theorem mark_of_isSpace (h : isSpace piece = true) : mark piece = .blank :=
  mark_of_blank (isBlankPiece_of_isSpace h)

theorem mark_of_numeric (h : Numeric piece) : mark piece = .other := by
  have hne : ∀ c ∈ ['"', '\\', '[', ']', '{', '}'], piece ≠ .scalar c := by
    rintro c hc rfl
    simp only [List.mem_cons, List.not_mem_nil, or_false] at hc
    rcases hc with rfl | rfl | rfl | rfl | rfl | rfl
    all_goals exact absurd h (by decide)
  simp only [List.mem_cons, List.not_mem_nil, or_false, forall_eq_or_imp, forall_eq] at hne
  unfold mark
  simp [isBlankPiece_of_numeric h, hne]

/-! ## Values -/

theorem step_inside {m : Mark} (hquote : m ≠ .quote) (hbackslash : m ≠ .backslash) :
    (inside depth).step m = inside depth := by
  cases m with
  | quote => exact absurd rfl hquote
  | backslash => exact absurd rfl hbackslash
  | blank => rfl
  | opener => rfl
  | closer => rfl
  | other => rfl

theorem run_inside {s : List Piece}
    (h : ∀ piece ∈ s, piece ≠ .scalar '"' ∧ piece ≠ .scalar '\\') :
    (inside depth).run s = inside depth := by
  induction s with
  | nil => rfl
  | cons piece s ih =>
      obtain ⟨hquote, hbackslash⟩ := h piece List.mem_cons_self
      rw [run_cons, step_inside fun hm => hquote (eq_of_mark_quote hm)]
      · exact ih fun q hq => h q (List.mem_cons_of_mem _ hq)
      · exact fun hm => hbackslash (eq_of_mark_backslash hm)

theorem run_hex {n : Nat} (h : Hex text n) : (inside depth).run text = inside depth := by
  have hne : ∀ {c : Char} {x : Nat}, hexDigit? c = some x →
      Piece.scalar c ≠ .scalar '"' ∧ Piece.scalar c ≠ .scalar '\\' := by
    intro c x hc
    have hquote : hexDigit? '"' = none := by decide
    have hbackslash : hexDigit? '\\' = none := by decide
    constructor
    · rintro heq
      rw [Piece.scalar.inj heq, hquote] at hc
      exact absurd hc (by simp)
    · rintro heq
      rw [Piece.scalar.inj heq, hbackslash] at hc
      exact absurd hc (by simp)
  obtain ⟨ha, hb, hc, hd⟩ := h
  apply run_inside
  simp only [List.mem_cons, List.not_mem_nil, or_false, forall_eq_or_imp, forall_eq]
  exact ⟨hne ha, hne hb, hne hc, hne hd⟩

theorem run_escapes {c : Char} (h : Escapes text c) : (escaped depth).run text = inside depth := by
  cases h with
  | letter h => rfl
  | unit h _ _ => exact run_hex h
  | pair h h' _ _ _ =>
      rw [run_append]
      show ((inside depth).run _).run _ = _
      rw [run_hex h, run_cons, run_cons]
      exact run_hex h'

theorem run_contents {cs : List Char} (h : Contents text cs) :
    (inside depth).run text = under depth := by
  induction h with
  | close => rfl
  | plain hquote hescape _ _ ih =>
      rw [run_cons, step_inside]
      · exact ih
      · exact fun hm => hquote (Piece.scalar.inj (eq_of_mark_quote hm))
      · exact fun hm => hescape (Piece.scalar.inj (eq_of_mark_backslash hm))
  | escape he _ ih =>
      have hmark : (inside depth).step (mark (.scalar '\\')) = escaped depth := rfl
      rw [run_cons, hmark, run_append, run_escapes he]
      exact ih

/-- A text of pieces with one mark leads nowhere if none of them does. -/
theorem run_of_step {m : Mark} (hq : q.step m = q) (h : ∀ piece ∈ s, mark piece = m) : q.run s = q := by
  induction s with
  | nil => rfl
  | cons piece s ih =>
      rw [run_cons, h piece List.mem_cons_self, hq]
      exact ih fun p hp => h p (List.mem_cons_of_mem _ hp)

end Scan

/-- What a phrase leaves behind: a value is complete on its own and stays in the brackets around it, any
other phrase closes the bracket or the string that it stands in. -/
def Phrase.Nests (text : List Piece) : Phrase → Prop
  | value _ => (Scan.start.run text).Complete ∧ ∀ depth, (Scan.nested depth).run text = .nested depth
  | member _ => ∀ depth, (Scan.inside (depth + 1)).run text = .nested depth
  | _ => ∀ depth, (Scan.nested depth).run text = .under depth

open Scan

theorem Phrase.nests_of_other {v : Json} {text : List Piece} (hne : text ≠ [])
    (h : ∀ piece ∈ text, mark piece = .other) : (value v).Nests text := by
  refine ⟨?_, fun depth => run_of_step rfl h⟩
  cases text with
  | nil => exact absurd rfl hne
  | cons piece text =>
      have hword : word.run text = word :=
        run_of_step rfl fun p hp => h p (List.mem_cons_of_mem _ hp)
      rw [run_cons, h piece List.mem_cons_self]
      show (word.run text).Complete
      rw [hword]
      trivial

theorem Phrase.nests_of_opener {v : Json} {piece : Piece} {text : List Piece}
    (hpiece : mark piece = .opener) (h : ∀ depth, (nested depth).run text = under depth) :
    (value v).Nests (piece :: text) := by
  constructor
  · rw [run_cons, hpiece]
    show ((nested 0).run text).Complete
    rw [h 0]
    trivial
  · intro depth
    rw [run_cons, hpiece]
    exact h (depth + 1)

theorem mark_of_literals :
    ∀ entry ∈ literals, entry.1 ≠ [] ∧ ∀ c ∈ entry.1, mark (.scalar c) = .other := by
  have h : literals.all (fun entry =>
      entry.1 ≠ [] && entry.1.all fun c => mark (.scalar c) = .other) = true := by decide
  simpa only [List.all_eq_true, Bool.and_eq_true, decide_eq_true_eq] using h

/-- **What spells a phrase nests like it.** -/
theorem Spells.nests {d : Nat} {ph : Phrase} {text : List Piece} (h : Spells d ph text) :
    ph.Nests text := by
  induction h with
  | space hspace hloose _ ih =>
      rename_i ph piece text _
      have hmark := mark_of_isSpace hspace
      cases ph with
      | value v =>
          refine ⟨?_, ?_⟩
          · rw [run_cons, hmark]
            exact ih.1
          · intro depth
            rw [run_cons, hmark]
            exact ih.2 depth
      | member m => exact hloose.elim
      | items vs | moreItems vs | members ms | moreMembers ms =>
          intro depth
          rw [run_cons, hmark]
          exact ih depth
  | literal h =>
      obtain ⟨hne, hother⟩ := mark_of_literals _ h
      apply Phrase.nests_of_other
      · simpa using hne
      · simpa using hother
  | number h =>
      obtain ⟨hne, hnumeric⟩ := Number.numeric_of_read h
      exact Phrase.nests_of_other hne fun piece hpiece => mark_of_numeric (hnumeric piece hpiece)
  | negative h =>
      obtain ⟨-, hnumeric⟩ := Number.numeric_of_read h
      refine Phrase.nests_of_other (List.cons_ne_nil _ _) (List.forall_mem_cons.mpr ⟨by decide, ?_⟩)
      exact fun piece hpiece => mark_of_numeric (hnumeric piece hpiece)
  | string h =>
      constructor
      · show ((Scan.inside 0).run _).Complete
        rw [run_contents h]
        trivial
      · intro depth
        exact run_contents h
  | array _ ih => exact Phrase.nests_of_opener (by decide) ih
  | object _ ih => exact Phrase.nests_of_opener (by decide) ih
  | noItems => exact fun _ => rfl
  | items _ _ ih ihmore =>
      intro depth
      rw [run_append, ih.2 depth]
      exact ihmore depth
  | endItems => exact fun _ => rfl
  | nextItem _ ih => exact ih
  | noMembers => exact fun _ => rfl
  | members _ _ ih ihmore =>
      intro depth
      show ((Scan.inside (depth + 1)).run _) = _
      rw [run_append, ih depth]
      exact ihmore depth
  | endMembers => exact fun _ => rfl
  | nextMember _ ih => exact ih
  | member hkey hgap _ ih =>
      intro depth
      rw [run_append, run_contents hkey, run_append]
      show (((nested depth).run _).run _) = _
      rw [run_of_step rfl fun piece hpiece => mark_of_isSpace (hgap piece hpiece)]
      exact ih.2 depth

/-- A text that is read as a value is complete on its own, and stays in any brackets around it. -/
theorem nests_of_ofPieces {v : Json} {s : List Piece} (h : ofPieces s = .ok v) :
    (Phrase.value v).Nests s := by
  obtain ⟨text, gap, rfl, hspells, hgap⟩ := ofPieces_eq_ok_iff.mp h
  have hmarks : ∀ piece ∈ gap, mark piece = .blank := fun piece hpiece =>
    mark_of_isSpace (hgap piece hpiece)
  obtain ⟨hcomplete, hnested⟩ := hspells.nests
  constructor
  · -- The blanks behind a value end a word, and otherwise change nothing.
    rw [run_append]
    cases gap with
    | nil => exact hcomplete
    | cons piece gap =>
        have hdone : (start.run text).step .blank = done := by
          generalize start.run text = q at hcomplete
          cases q <;> first | rfl | exact hcomplete.elim
        rw [run_cons, hmarks piece List.mem_cons_self, hdone,
          run_of_step rfl fun p hp => hmarks p (List.mem_cons_of_mem _ hp)]
        trivial
  · intro depth
    rw [run_append, hnested depth]
    exact run_of_step rfl hmarks

/-! ## Behind an open string -/

namespace Scan

variable {a b q : Scan} {m : Mark} {s : List Piece} {depth : Nat}

def Outside : Scan → Prop
  | start => True
  | word => True
  | done => True
  | nested _ => True
  | _ => False

/-- Of two scans of one text one is in a string and the other is not, unless one of them is stuck. -/
inductive Flipped : Scan → Scan → Prop
  | right {a : Scan} {depth : Nat} (ha : a.Outside) : Flipped a (inside depth)
  | left {b : Scan} {depth : Nat} (hb : b.Outside) : Flipped (inside depth) b
  | stuckLeft (b : Scan) : Flipped stuck b
  | stuckRight (a : Scan) : Flipped a stuck

theorem Flipped.symm (h : Flipped a b) : Flipped b a := by
  cases h with
  | right ha => exact .left ha
  | left hb => exact .right hb
  | stuckLeft => exact .stuckRight _
  | stuckRight => exact .stuckLeft _

theorem outside_under (depth : Nat) : (under depth).Outside := by
  cases depth <;> trivial

theorem step_stuck (m : Mark) : stuck.step m = stuck := by
  cases m <;> rfl

/-- A quote begins a string in the one scan and ends it in the other; a backslash is an escape in the one
and has no place in the other. -/
theorem Outside.flipped_step (ha : a.Outside) (m : Mark) : Flipped (a.step m) ((inside depth).step m) := by
  cases m with
  | quote =>
      cases a with
      | start => exact .left (outside_under depth)
      | nested _ => exact .left (outside_under depth)
      | word => exact .stuckLeft _
      | done => exact .stuckLeft _
      | inside _ | escaped _ | stuck => exact ha.elim
  | backslash =>
      cases a with
      | start | word | done | nested _ => exact .stuckLeft _
      | inside _ | escaped _ | stuck => exact ha.elim
  | closer =>
      cases a with
      | nested e => exact .right (outside_under e)
      | start | word | done => exact .stuckLeft _
      | inside _ | escaped _ | stuck => exact ha.elim
  | opener =>
      cases a with
      | start | nested _ => exact .right trivial
      | word | done => exact .stuckLeft _
      | inside _ | escaped _ | stuck => exact ha.elim
  | blank =>
      cases a with
      | start | word | done | nested _ => exact .right trivial
      | inside _ | escaped _ | stuck => exact ha.elim
  | other =>
      cases a with
      | start | word | nested _ => exact .right trivial
      | done => exact .stuckLeft _
      | inside _ | escaped _ | stuck => exact ha.elim

theorem Flipped.step (h : Flipped a b) (m : Mark) : Flipped (a.step m) (b.step m) := by
  cases h with
  | right ha => exact ha.flipped_step m
  | left hb => exact (hb.flipped_step m).symm
  | stuckLeft =>
      rw [step_stuck]
      exact .stuckLeft _
  | stuckRight =>
      rw [step_stuck]
      exact .stuckRight _

theorem Flipped.run (h : Flipped a b) (s : List Piece) : Flipped (a.run s) (b.run s) := by
  induction s generalizing a b with
  | nil => exact h
  | cons piece s ih => exact ih (h.step (mark piece))

theorem Flipped.not_complete (h : Flipped a b) (ha : a.Complete) : ¬ b.Complete := by
  cases h with
  | right _ => exact id
  | left _ => exact ha.elim
  | stuckLeft => exact ha.elim
  | stuckRight => exact id

/-! ## Behind a word -/

theorem step_ne_start (h : q ≠ start ∨ m ≠ .blank) : q.step m ≠ start := by
  have hunder : ∀ depth, under depth ≠ start := by
    intro depth
    cases depth <;> simp [under]
  cases q <;> cases m <;> simp [Scan.step, hunder] at h ⊢

theorem run_ne_start (h : q ≠ start) (s : List Piece) : q.run s ≠ start := by
  induction s generalizing q with
  | nil => exact h
  | cons piece s ih => exact ih (step_ne_start (Or.inl h))

/-- Behind a value there is place for nothing but blanks. -/
theorem start_of_done (h : (done.run s).Complete) : start.run s = start := by
  induction s with
  | nil => rfl
  | cons piece s ih =>
      rw [run_cons] at h ⊢
      cases hm : mark piece with
      | blank =>
          rw [hm] at h
          exact ih h
      | quote | backslash | opener | closer | other =>
          rw [hm] at h
          exact absurd h (by simp [Scan.step, run_stuck, Complete])

/-- **What opens with a word and a gap is no value with a value behind it**: the word leaves nothing open,
and then no value goes on behind the gap; or it leaves brackets open, and then the value does not close
them; or a string, and then the value ends in one. -/
theorem not_complete_of_word {first blank : Piece} (hfirst : isBlankPiece first = false)
    (hblank : isBlankPiece blank = true) (front : List Piece) (hs : (start.run s).Complete)
    (hnested : ∀ depth, (nested depth).run s = nested depth) :
    ¬ (start.run (first :: front ++ blank :: s)).Complete := by
  have hne : start.run (first :: front) ≠ start :=
    run_ne_start (step_ne_start (Or.inr (mark_ne_blank hfirst))) front
  rw [run_append, run_cons, mark_of_blank hblank]
  have hdone : ¬ (done.run s).Complete := by
    intro hcomplete
    rw [start_of_done hcomplete] at hs
    exact hs
  generalize start.run (first :: front) = q at hne
  cases q with
  | start => exact absurd rfl hne
  | word => exact hdone
  | done => exact hdone
  | nested depth =>
      show ¬ ((nested depth).run s).Complete
      rw [hnested depth]
      exact id
  | inside depth =>
      have hflipped : Flipped start (inside depth) := .right trivial
      exact (hflipped.run s).not_complete hs
  | escaped depth =>
      have hflipped : Flipped start (inside depth) := .right trivial
      exact (hflipped.run s).not_complete hs
  | stuck =>
      show ¬ (stuck.run s).Complete
      rw [run_stuck]
      exact id

end Scan

end ToolNodes.Json
