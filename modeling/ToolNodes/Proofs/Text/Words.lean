import ToolNodes.Session.Line
import ToolNodes.Proofs.Basic
import ToolNodes.Proofs.Text.Trim

/-!
# Words and gaps

A text that is put together of words with gaps between them comes apart into the same words: trimming
takes the blanks around them, the first word ends at the first gap, and splitting finds each of them.
-/

namespace ToolNodes.Text

variable {w gap lead front rest s trail : List Char}

/-- Some characters, none of them blank. -/
structure IsWord (w : List Char) : Prop where
  ne : w ≠ []
  solid : ∀ c ∈ w, isBlank c = false

/-- Some characters, all of them blank. -/
structure IsGap (gap : List Char) : Prop where
  ne : gap ≠ []
  blank : ∀ c ∈ gap, isBlank c = true

/-- Some characters without blanks around them. -/
structure IsName (s : List Char) : Prop where
  ne : s ≠ []
  start : startsIn isBlank s = false
  stop : endsIn isBlank s = false

/-- Nothing, or a text that starts with a blank: what may stand behind a word. -/
def EndsWord (rest : List Char) : Prop := ∀ c, rest.head? = some c → isBlank c = true

theorem endsWord_of_blank (h : ∀ c ∈ s, isBlank c = true) : EndsWord s :=
  fun c hc => h c (List.mem_of_mem_head? hc)

theorem endsWord_nil : EndsWord [] := endsWord_of_blank fun _ hc => absurd hc List.not_mem_nil

theorem IsGap.endsWord (h : IsGap gap) (rest : List Char) : EndsWord (gap ++ rest) := by
  cases gap with
  | nil => exact absurd rfl h.ne
  | cons c gap =>
      intro d hd
      cases hd
      exact h.blank c List.mem_cons_self

theorem IsWord.endsIn (hw : IsWord w) : endsIn isBlank w = false := by
  unfold Text.endsIn
  rw [List.getLast?_eq_some_getLast hw.ne]
  exact hw.solid _ (List.getLast_mem hw.ne)

theorem IsGap.endsIn (h : IsGap gap) : endsIn isBlank gap = true := by
  unfold Text.endsIn
  rw [List.getLast?_eq_some_getLast h.ne]
  exact h.blank _ (List.getLast_mem h.ne)

theorem isWord_of_all (hne : w ≠ []) (h : (w.all fun c => !isBlank c) = true) : IsWord w := by
  refine ⟨hne, ?_⟩
  intro c hc
  simpa using List.all_eq_true.mp h c hc

theorem isGap_space : IsGap [' '] := by
  refine ⟨by decide, ?_⟩
  intro c hc
  rw [List.mem_singleton.mp hc]
  decide

theorem EndsWord.dropTail (h : EndsWord rest) : EndsWord (dropTail isBlank rest) := by
  obtain ⟨tail, htail⟩ := dropTail_isPrefix isBlank rest
  intro c hc
  apply h c
  rw [← htail, List.head?_append, hc]
  rfl

/-! ## First words -/

theorem firstWord_word (hw : IsWord w) (hrest : EndsWord rest) : firstWord (w ++ rest) = w := by
  unfold firstWord
  rw [List.takeWhile_append_of_pos]
  · cases rest with
    | nil => exact List.append_nil w
    | cons c rest =>
        rw [List.takeWhile_cons_of_neg, List.append_nil]
        simp [hrest c rfl]
  · intro c hc
    simp [hw.solid c hc]

theorem afterFirstWord_word (hw : IsWord w) (hrest : EndsWord rest) :
    afterFirstWord (w ++ rest) = trim rest := by
  unfold afterFirstWord
  rw [List.dropWhile_append_of_pos]
  · cases rest with
    | nil => rfl
    | cons c rest =>
        rw [List.dropWhile_cons_of_neg]
        simp [hrest c rfl]
  · intro c hc
    simp [hw.solid c hc]

/-- The first word and the rest of a text that has both. -/
theorem splitFirst_word (hw : IsWord w) (hgap : IsGap gap) (hstart : startsIn isBlank s = false)
    (hend : endsIn isBlank s = false) : splitFirst (w ++ (gap ++ s)) = (w, s) := by
  have htrim : trim (gap ++ s) = s := by
    have hparts := trim_of_parts hgap.blank (fun _ hc => absurd hc List.not_mem_nil) hstart hend
    rw [List.append_nil] at hparts
    exact hparts
  unfold splitFirst
  rw [firstWord_word hw (hgap.endsWord s), afterFirstWord_word hw (hgap.endsWord s), htrim]

theorem splitFirst_of_word (hw : IsWord w) : splitFirst w = (w, []) := by
  have hfirst := firstWord_word hw endsWord_nil
  have hafter := afterFirstWord_word hw endsWord_nil
  rw [List.append_nil] at hfirst hafter
  unfold splitFirst
  rw [hfirst, hafter]
  rfl

theorem isWord_firstWord (hne : s ≠ []) (hstart : startsIn isBlank s = false) :
    IsWord (firstWord s) := by
  unfold firstWord
  constructor
  · cases s with
    | nil => exact absurd rfl hne
    | cons c s =>
        rw [List.takeWhile_cons_of_pos (by simpa [startsIn] using hstart)]
        exact List.cons_ne_nil _ _
  · intro c hc
    simpa using List.mem_takeWhile_imp hc

theorem firstWord_append (s : List Char) : ∃ rest, s = firstWord s ++ rest ∧ EndsWord rest := by
  refine ⟨s.dropWhile fun c => !isBlank c, List.takeWhile_append_dropWhile.symm, ?_⟩
  intro c hc
  have hnot := List.head?_dropWhile_not (fun c => !isBlank c) s
  rw [hc] at hnot
  simpa using hnot

/-- Behind a word there is nothing, or a gap and something that it ends at. -/
theorem EndsWord.nil_or_gap (h : EndsWord s) :
    s = [] ∨ ∃ gap rest, s = gap ++ rest ∧ IsGap gap ∧ startsIn isBlank rest = false := by
  cases s with
  | nil => exact Or.inl rfl
  | cons c s =>
      refine Or.inr ⟨_, _, List.takeWhile_append_dropWhile.symm, ?_, startsIn_dropWhile _ _⟩
      constructor
      · rw [List.takeWhile_cons_of_pos (h c rfl)]
        exact List.cons_ne_nil _ _
      · exact fun d hd => List.mem_takeWhile_imp hd

/-- A text without blanks around it is a word, or a word and something behind a gap. -/
theorem word_or_split (hne : s ≠ []) (hstart : startsIn isBlank s = false)
    (hend : endsIn isBlank s = false) :
    IsWord s ∨ ∃ w gap rest, s = w ++ (gap ++ rest) ∧ IsWord w ∧ IsGap gap ∧ rest ≠ [] ∧
      startsIn isBlank rest = false ∧ endsIn isBlank rest = false := by
  have hword := isWord_firstWord hne hstart
  obtain ⟨behind, hs, hbehind⟩ := firstWord_append s
  rcases hbehind.nil_or_gap with rfl | ⟨gap, rest, rfl, hgap, hrest⟩
  · rw [List.append_nil] at hs
    rw [← hs] at hword
    exact Or.inl hword
  · have hne' : rest ≠ [] := by
      rintro rfl
      rw [hs, List.append_nil, endsIn_append hgap.ne, hgap.endsIn] at hend
      exact absurd hend (by simp)
    refine Or.inr ⟨_, gap, rest, hs, hword, hgap, hne', hrest, ?_⟩
    rw [hs, endsIn_append (List.append_ne_nil_of_right_ne_nil _ hne'), endsIn_append hne'] at hend
    exact hend

/-- Where a gap ends is told by what stands behind it. -/
theorem gap_cancel {gap' s' : List Char} (hgap : IsGap gap) (hgap' : IsGap gap')
    (hs : startsIn isBlank s = false) (hs' : startsIn isBlank s' = false)
    (h : gap ++ s = gap' ++ s') : gap = gap' ∧ s = s' := by
  have htake : ∀ {g t : List Char}, IsGap g → startsIn isBlank t = false →
      (g ++ t).takeWhile isBlank = g := by
    intro g t hg ht
    rw [List.takeWhile_append_of_pos hg.blank]
    cases t with
    | nil => exact List.append_nil g
    | cons c t =>
        rw [List.takeWhile_cons_of_neg, List.append_nil]
        simpa [startsIn] using ht
  have hsame := congrArg (List.takeWhile isBlank) h
  rw [htake hgap hs, htake hgap' hs'] at hsame
  rw [hsame] at h
  exact ⟨hsame, List.append_cancel_left h⟩

/-! ## All words -/

theorem words_cons_blank {c : Char} (hc : isBlank c = true) : words (c :: s) = words s := by
  simp [words, splitOn, hc]

/-- The blanks in front are no words. -/
theorem words_lead (hlead : ∀ c ∈ lead, isBlank c = true) : words (lead ++ s) = words s := by
  induction lead with
  | nil => rfl
  | cons c lead ih =>
      rw [List.cons_append, words_cons_blank (hlead c List.mem_cons_self)]
      exact ih fun d hd => hlead d (List.mem_cons_of_mem _ hd)

theorem words_gap (hgap : IsGap gap) : words (gap ++ s) = words s := words_lead hgap.blank

/-- The first word is one of the words. -/
theorem words_word (hw : IsWord w) (hrest : EndsWord rest) :
    words (w ++ rest) = w :: words rest := by
  cases rest with
  | nil =>
      rw [List.append_nil]
      unfold words
      rw [splitOn_of_none hw.solid]
      simp [splitOn, hw.ne]
  | cons c rest =>
      rw [words_cons_blank (hrest c rfl)]
      unfold words
      rw [splitOn_append_cons hw.solid (hrest c rfl)]
      simp [hw.ne]

/-- Words come apart at a blank. -/
theorem words_append_cons {c : Char} (hc : isBlank c = true) (s t : List Char) :
    words (s ++ c :: t) = words s ++ words t := by
  unfold words
  rw [splitOn_append_separator hc, List.filter_append]

theorem words_of_blank (h : ∀ c ∈ s, isBlank c = true) : words s = [] := by
  have hwords := words_lead (s := []) h
  rw [List.append_nil] at hwords
  exact hwords

theorem words_trail (htrail : ∀ c ∈ trail, isBlank c = true) (s : List Char) :
    words (s ++ trail) = words s := by
  cases trail with
  | nil => rw [List.append_nil]
  | cons c trail =>
      obtain ⟨hc, htrail⟩ := List.forall_mem_cons.mp htrail
      rw [words_append_cons hc, words_of_blank htrail, List.append_nil]

/-- Trimming takes no word. -/
theorem words_trim (s : List Char) : words (trim s) = words s := by
  obtain ⟨lead, trail, hs, hlead, htrail⟩ := parts_of_trim s
  conv_rhs => rw [hs, words_trail htrail, words_lead hlead]

/-- A text is blank, or its first word stands behind blanks. -/
theorem blank_or_word (s : List Char) :
    (∀ c ∈ s, isBlank c = true) ∨ ∃ lead w rest, s = lead ++ (w ++ rest) ∧
      (∀ c ∈ lead, isBlank c = true) ∧ IsWord w ∧ EndsWord rest := by
  have hsplit : s = s.takeWhile isBlank ++ s.dropWhile isBlank := List.takeWhile_append_dropWhile.symm
  have hlead : ∀ c ∈ s.takeWhile isBlank, isBlank c = true := fun _ hc => List.mem_takeWhile_imp hc
  by_cases hnil : s.dropWhile isBlank = []
  · rw [hnil, List.append_nil] at hsplit
    rw [hsplit]
    exact Or.inl hlead
  · obtain ⟨rest, hrest, hends⟩ := firstWord_append (s.dropWhile isBlank)
    refine Or.inr ⟨_, _, rest, ?_, hlead, isWord_firstWord hnil (startsIn_dropWhile _ _), hends⟩
    rw [← hrest]
    exact hsplit

theorem IsWord.isName (hw : IsWord w) : IsName w := by
  refine ⟨hw.ne, ?_, hw.endsIn⟩
  cases w with
  | nil => rfl
  | cons c w => exact hw.solid c List.mem_cons_self

/-- The blanks behind a word are a gap if something comes after them. -/
theorem EndsWord.isGap (h : EndsWord (lead ++ (s ++ rest))) (hlead : ∀ c ∈ lead, isBlank c = true)
    (hs : IsName s) : IsGap lead := by
  refine ⟨?_, hlead⟩
  rintro rfl
  cases s with
  | nil => exact absurd rfl hs.ne
  | cons c s =>
      have hc : isBlank c = false := hs.start
      rw [h c rfl] at hc
      exact absurd hc (by simp)

/-- A text behind a word is blank, or has another word behind a gap. -/
theorem EndsWord.blank_or_word (h : EndsWord s) :
    (∀ c ∈ s, isBlank c = true) ∨ ∃ gap w rest, s = gap ++ (w ++ rest) ∧ IsGap gap ∧ IsWord w ∧
      EndsWord rest := by
  rcases Text.blank_or_word s with hblank | ⟨lead, w, rest, rfl, hlead, hw, hrest⟩
  · exact Or.inl hblank
  · exact Or.inr ⟨lead, w, rest, rfl, h.isGap hlead hw.isName, hw, hrest⟩

/-- A text behind a word is blank, or has a name behind a gap. -/
theorem EndsWord.blank_or_name (h : EndsWord s) :
    (∀ c ∈ s, isBlank c = true) ∨ ∃ gap name trail, s = gap ++ (name ++ trail) ∧ IsGap gap ∧
      IsName name ∧ ∀ c ∈ trail, isBlank c = true := by
  obtain ⟨lead, trail, hs, hlead, htrail⟩ := parts_of_trim s
  rw [List.append_assoc] at hs
  by_cases hnil : trim s = []
  · rw [hnil, List.nil_append] at hs
    rw [hs]
    exact Or.inl (List.forall_mem_append.mpr ⟨hlead, htrail⟩)
  · have hname : IsName (trim s) := ⟨hnil, startsIn_trim s, endsIn_trim s⟩
    rw [hs] at h
    exact Or.inr ⟨lead, trim s, trail, hs, h.isGap hlead hname, hname, htrail⟩

theorem words_eq_nil_iff : words s = [] ↔ ∀ c ∈ s, isBlank c = true := by
  constructor
  · intro h
    rcases blank_or_word s with hblank | ⟨lead, w, rest, rfl, hlead, hw, hrest⟩
    · exact hblank
    · rw [words_lead hlead, words_word hw hrest] at h
      exact absurd h (by simp)
  · exact words_of_blank

theorem words_of_isWord (hw : IsWord w) : words w = [w] := by
  have hwords := words_word hw endsWord_nil
  rw [List.append_nil] at hwords
  exact hwords

/-- A text has fewer than two words exactly if trimming leaves nothing or a word. -/
theorem words_lt_two_iff (s : List Char) :
    (words s).length < 2 ↔ trim s = [] ∨ IsWord (trim s) := by
  rw [← words_trim]
  constructor
  · intro hlt
    by_cases hnil : trim s = []
    · exact Or.inl hnil
    · rcases word_or_split hnil (startsIn_trim s) (endsIn_trim s) with hword |
        ⟨w, gap, rest, hsplit, hw, hgap, hne, hstart, -⟩
      · exact Or.inr hword
      · -- What stands behind the gap has a first word too.
        obtain ⟨behind, hrest, hends⟩ := firstWord_append rest
        rw [hsplit, words_word hw (hgap.endsWord _), words_gap hgap, hrest,
          words_word (isWord_firstWord hne hstart) hends] at hlt
        exact absurd hlt (by simp)
  · rintro (hnil | hword)
    · rw [hnil]
      decide
    · rw [words_of_isWord hword]
      exact Nat.one_lt_two

/-! ## Trimming -/

theorem endsIn_word (front : List Char) (hw : IsWord w) : endsIn isBlank (front ++ w) = false := by
  rw [endsIn_append hw.ne]
  exact hw.endsIn

theorem startsIn_word (hw : IsWord w) (rest : List Char) : startsIn isBlank (w ++ rest) = false := by
  cases w with
  | nil => exact absurd rfl hw.ne
  | cons c w => exact hw.solid c List.mem_cons_self

/-- Trimming takes the blanks in front, and those behind the last word. -/
theorem trim_words (hlead : ∀ c ∈ lead, isBlank c = true)
    (hfront : startsIn isBlank (front ++ (w ++ rest)) = false) (hw : IsWord w) :
    trim (lead ++ (front ++ (w ++ rest))) = front ++ (w ++ dropTail isBlank rest) := by
  unfold trim
  rw [List.dropWhile_append_of_pos hlead, dropWhile_eq_self hfront, ← List.append_assoc,
    dropTail_append (endsIn_word front hw), List.append_assoc]

/-- A name between blanks is what trimming leaves. -/
theorem trim_name (hlead : ∀ c ∈ lead, isBlank c = true) (hs : IsName s)
    (htrail : ∀ c ∈ trail, isBlank c = true) : trim (lead ++ (s ++ trail)) = s := by
  rw [← List.append_assoc]
  exact trim_of_parts hlead htrail hs.start hs.stop

/-- The first word and the rest of a text with blanks around them. -/
theorem splitFirst_trim (hlead : ∀ c ∈ lead, isBlank c = true) (hw : IsWord w) (hgap : IsGap gap)
    (hs : trim s ≠ []) (htrail : ∀ c ∈ trail, isBlank c = true) :
    splitFirst (trim (lead ++ (w ++ (gap ++ (s ++ trail))))) = (w, trim s) := by
  obtain ⟨before, behind, hparts, hbefore, hbehind⟩ := parts_of_trim s
  have hgap' : IsGap (gap ++ before) :=
    ⟨List.append_ne_nil_of_left_ne_nil hgap.ne _, List.forall_mem_append.mpr ⟨hgap.blank, hbefore⟩⟩
  have hsplit : lead ++ (w ++ (gap ++ (s ++ trail))) =
      lead ++ (w ++ (gap ++ before ++ trim s)) ++ (behind ++ trail) := by
    conv_lhs => rw [hparts]
    simp only [List.append_assoc]
  have hend : endsIn isBlank (w ++ (gap ++ before ++ trim s)) = false := by
    rw [endsIn_append (List.append_ne_nil_of_right_ne_nil _ hs), endsIn_append hs]
    exact endsIn_trim s
  rw [hsplit, trim_of_parts hlead (List.forall_mem_append.mpr ⟨hbehind, htrail⟩)
    (startsIn_word hw _) hend]
  exact splitFirst_word hw hgap' (startsIn_trim s) (endsIn_trim s)

/-! ## Words with spaces between them -/

/-- Some words, each behind a space. -/
def spaced (ws : List (List Char)) : List Char := ws.flatMap (' ' :: ·)

/-- Words with a space between any two: the first, and each of the others behind its space. -/
theorem intercalate_space (w : List Char) (ws : List (List Char)) :
    [' '].intercalate (w :: ws) = w ++ spaced ws := by
  induction ws generalizing w with
  | nil => simp [spaced]
  | cons v vs ih =>
      rw [List.intercalate_cons_cons, ih, List.append_assoc]
      rfl

theorem endsWord_spaced (ws : List (List Char)) : EndsWord (spaced ws) := by
  cases ws with
  | nil => simp [spaced, EndsWord]
  | cons w ws => exact isGap_space.endsWord (w ++ spaced ws)

theorem endsIn_spaced {ws : List (List Char)} (hw : IsWord w) (h : ∀ v ∈ ws, IsWord v) :
    endsIn isBlank (w ++ spaced ws) = false := by
  induction ws generalizing w with
  | nil =>
      show endsIn isBlank (w ++ []) = false
      rw [List.append_nil]
      exact endsIn_word [] hw
  | cons v vs ih =>
      have hv := h v List.mem_cons_self
      have hne : v ++ spaced vs ≠ [] := fun hnil => hv.ne (List.append_eq_nil_iff.mp hnil).1
      have hsplit : w ++ spaced (v :: vs) = (w ++ [' ']) ++ (v ++ spaced vs) := by
        rw [List.append_assoc]
        rfl
      rw [hsplit, endsIn_append hne]
      exact ih hv fun u hu => h u (List.mem_cons_of_mem _ hu)

theorem trim_intercalate {ws : List (List Char)} (h : ∀ w ∈ ws, IsWord w) :
    trim ([' '].intercalate ws) = [' '].intercalate ws := by
  cases ws with
  | nil => rfl
  | cons w ws =>
      have hw := h w List.mem_cons_self
      rw [intercalate_space]
      exact trim_eq_self (startsIn_word hw _)
        (endsIn_spaced hw fun v hv => h v (List.mem_cons_of_mem _ hv))

theorem trim_spaced {ws : List (List Char)} (h : ∀ w ∈ ws, IsWord w) :
    trim (spaced ws) = [' '].intercalate ws := by
  cases ws with
  | nil => rfl
  | cons w ws =>
      have htrim := trim_intercalate h
      rw [intercalate_space] at htrim ⊢
      show trim (' ' :: (w ++ spaced ws)) = _
      unfold trim at htrim ⊢
      rw [List.dropWhile_cons_of_pos (by decide)]
      exact htrim

theorem words_spaced {ws : List (List Char)} (h : ∀ w ∈ ws, IsWord w) : words (spaced ws) = ws := by
  induction ws with
  | nil => rfl
  | cons w ws ih =>
      show words (' ' :: (w ++ spaced ws)) = _
      rw [words_cons_blank (by decide), words_word (h w List.mem_cons_self) (endsWord_spaced ws),
        ih fun v hv => h v (List.mem_cons_of_mem _ hv)]

theorem words_intercalate {ws : List (List Char)} (h : ∀ w ∈ ws, IsWord w) :
    words ([' '].intercalate ws) = ws := by
  cases ws with
  | nil => rfl
  | cons w ws =>
      rw [intercalate_space, words_word (h w List.mem_cons_self) (endsWord_spaced ws),
        words_spaced fun v hv => h v (List.mem_cons_of_mem _ hv)]

/-- The spaces are all that is blank. -/
theorem solid_of_mem_spaced {ws : List (List Char)} (h : ∀ w ∈ ws, IsWord w) {c : Char}
    (hc : c ∈ spaced ws) : c = ' ' ∨ isBlank c = false := by
  obtain ⟨w, hw, hc⟩ := List.mem_flatMap.mp hc
  rcases List.mem_cons.mp hc with rfl | hc
  · exact Or.inl rfl
  · exact Or.inr ((h w hw).solid c hc)

theorem solid_of_mem_intercalate {ws : List (List Char)} (h : ∀ w ∈ ws, IsWord w) {c : Char}
    (hc : c ∈ [' '].intercalate ws) : c = ' ' ∨ isBlank c = false := by
  cases ws with
  | nil => exact absurd hc List.not_mem_nil
  | cons w ws =>
      rw [intercalate_space] at hc
      exact solid_of_mem_spaced h (List.mem_cons_of_mem _ hc)

/-! ## Cutting -/

def utf8Length : List Char → Nat
  | [] => 0
  | c :: s => c.utf8Size + utf8Length s

theorem cutBytes_append (front rest : List Char) :
    cutBytes (utf8Length front) (front ++ rest) = some (front, rest) := by
  induction front with
  | nil => rw [utf8Length, List.nil_append, cutBytes]
  | cons c front ih =>
      have hpos := Char.utf8Size_pos c
      rw [utf8Length, List.cons_append]
      obtain ⟨n, hn⟩ : ∃ n, c.utf8Size + utf8Length front = n + 1 :=
        ⟨c.utf8Size + utf8Length front - 1, by omega⟩
      rw [hn, cutBytes, if_pos (by omega)]
      have hrest : n + 1 - c.utf8Size = utf8Length front := by omega
      rw [hrest, ih]
      rfl

/-- A cut takes a front of the text that has the length. -/
theorem cutBytes_eq_some {n : Nat} (h : cutBytes n s = some (front, rest)) :
    s = front ++ rest ∧ utf8Length front = n := by
  induction s generalizing n front with
  | nil =>
      cases n with
      | zero =>
          rw [cutBytes] at h
          cases h
          exact ⟨rfl, rfl⟩
      | succ n => exact absurd h (by simp [cutBytes])
  | cons c s ih =>
      cases n with
      | zero =>
          rw [cutBytes] at h
          cases h
          exact ⟨rfl, rfl⟩
      | succ n =>
          rw [cutBytes] at h
          split at h
          · rename_i hle
            obtain ⟨⟨before, behind⟩, hcut, heq⟩ := Option.map_eq_some_iff.mp h
            cases heq
            obtain ⟨rfl, hlength⟩ := ih hcut
            refine ⟨rfl, ?_⟩
            rw [utf8Length, hlength]
            omega
          · exact absurd h (by simp)

/-- The small letter of a capital one is 32 above it. -/
theorem toNat_toLower_of_capital {c : Char} (h : c.val ≥ 'A'.val ∧ c.val ≤ 'Z'.val) :
    65 ≤ c.toNat ∧ c.toNat ≤ 90 ∧ c.toLower.toNat = c.toNat + 32 := by
  have hlow : 65 ≤ c.val.toNat := UInt32.le_iff_toNat_le.mp h.1
  have hhigh : c.val.toNat ≤ 90 := UInt32.le_iff_toNat_le.mp h.2
  refine ⟨hlow, hhigh, ?_⟩
  unfold Char.toLower
  rw [dif_pos h]
  show (c.val + ('a'.val - 'A'.val)).toNat = c.val.toNat + 32
  have hshift : ('a'.val - 'A'.val).toNat = 32 := by decide
  rw [UInt32.toNat_add, hshift]
  omega

/-- Changing the case of an ASCII letter does not change its length. -/
theorem utf8Size_toLower (c : Char) : c.toLower.utf8Size = c.utf8Size := by
  have hone : ∀ d : Char, d.toNat ≤ 127 → d.utf8Size = 1 := by
    intro d hd
    unfold Char.utf8Size
    rw [if_pos]
    exact UInt32.le_iff_toNat_le.mpr hd
  by_cases h : c.val ≥ 'A'.val ∧ c.val ≤ 'Z'.val
  · obtain ⟨-, hhigh, hval⟩ := toNat_toLower_of_capital h
    rw [hone c (by omega), hone c.toLower (by omega)]
  · unfold Char.toLower
    rw [dif_neg h]

theorem utf8ByteSize_ofList (s : List Char) :
    (String.ofList s).utf8ByteSize = utf8Length s := by
  induction s with
  | nil => rfl
  | cons c s ih =>
      rw [String.ofList_cons, String.utf8ByteSize_append, ih, String.utf8ByteSize_singleton,
        utf8Length]

theorem utf8Length_le_of_sublist {s t : List Char} (h : s.Sublist t) :
    utf8Length s ≤ utf8Length t := by
  induction h with
  | slnil => exact Nat.le_refl _
  | cons c h ih =>
      rw [utf8Length]
      omega
  | cons_cons c h ih =>
      rw [utf8Length, utf8Length]
      omega

theorem utf8Length_toLower (s : List Char) : utf8Length (s.map Char.toLower) = utf8Length s := by
  induction s with
  | nil => rfl
  | cons c s ih => rw [List.map_cons, utf8Length, utf8Length, utf8Size_toLower, ih]

/-- A command word is cut off by its length, whatever the case of its letters. -/
theorem stripCommand_of_sameLetters {command : String} (h : sameLetters front command.toList = true)
    (hrest : EndsWord rest) : stripCommand command (front ++ rest) = some (trim rest) := by
  have hlower : front.map Char.toLower = command.toList.map Char.toLower := by
    simpa [sameLetters] using h
  have hsize : command.utf8ByteSize = utf8Length front := by
    rw [← utf8Length_toLower front, hlower, utf8Length_toLower, ← utf8ByteSize_ofList,
      String.ofList_toList]
  unfold stripCommand
  rw [hsize, cutBytes_append, Option.bind_some, if_pos]
  rw [Bool.and_eq_true]
  refine ⟨h, ?_⟩
  cases rest with
  | nil => rfl
  | cons c rest => exact hrest c rfl

/-! ## Letters in any case -/

theorem toNat_toLower_lt {c : Char} : c.toLower.toNat < 0x80 ↔ c.toNat < 0x80 := by
  have hone : ∀ d : Char, d.utf8Size = 1 ↔ d.toNat < 0x80 := by
    intro d
    rw [Char.utf8Size_eq_one_iff]
    exact UInt32.le_iff_toNat_le.trans Nat.lt_succ_iff.symm
  rw [← hone, ← hone, utf8Size_toLower]

/-- ASCII letters have a lower case of their own. -/
theorem lowerFrom_ascii {s : List Char} (h : ∀ c ∈ s, c.toNat < 0x80) (afterCased : Bool) :
    lowerFrom afterCased s = s.map Char.toLower := by
  induction s generalizing afterCased with
  | nil => rfl
  | cons c s ih =>
      obtain ⟨hc, hs⟩ := List.forall_mem_cons.mp h
      have hsigma : c ≠ '\u03A3' := by
        rintro rfl
        exact absurd hc (by decide)
      rw [lowerFrom, if_neg hsigma, lowerChar, if_pos hc, ih hs]
      rfl

/-- The letters of an ASCII text in any case have the same lower case. -/
theorem lower_of_sameLetters {w : List Char} {t : String} (h : sameLetters w t.toList = true)
    (ht : ∀ c ∈ t.toList, c.toLower = c ∧ c.toNat < 0x80) : lower (String.ofList w) = t := by
  have hmap : t.toList.map Char.toLower = t.toList :=
    (List.map_congr_left fun c hc => (ht c hc).1).trans (List.map_id _)
  have hw : w.map Char.toLower = t.toList := by
    rw [← hmap]
    simpa [sameLetters] using h
  have hascii : ∀ c ∈ w, c.toNat < 0x80 := by
    intro c hc
    have hmem : c.toLower ∈ t.toList := hw ▸ List.mem_map_of_mem hc
    exact toNat_toLower_lt.mp (ht _ hmem).2
  unfold lower
  rw [String.toList_ofList, lowerFrom_ascii hascii, hw, String.ofList_toList]

/-- The case of a letter has nothing to do with being blank. -/
theorem isBlank_toLower (c : Char) : isBlank c.toLower = isBlank c := by
  by_cases h : c.val ≥ 'A'.val ∧ c.val ≤ 'Z'.val
  · have hsolid : ∀ d : Char, 65 ≤ d.toNat → d.toNat ≤ 122 → isBlank d = false := by
      intro d hlow hhigh
      simp only [isBlank, CharClass.contains, blanks, List.any_cons, List.any_nil, Bool.or_false,
        Bool.or_eq_false_iff, Bool.and_eq_false_iff, decide_eq_false_iff_not]
      omega
    obtain ⟨hlow, hhigh, hval⟩ := toNat_toLower_of_capital h
    rw [hsolid c hlow (by omega), hsolid c.toLower (by omega) (by omega)]
  · unfold Char.toLower
    rw [dif_neg h]

/-- The letters of a word in any case are a word. -/
theorem isWord_of_sameLetters {w t : List Char} (h : sameLetters w t = true) (ht : IsWord t) :
    IsWord w := by
  have hw : w.map Char.toLower = t.map Char.toLower := by simpa [sameLetters] using h
  refine ⟨fun hnil => ht.ne ?_, fun c hc => ?_⟩
  · rw [hnil, List.map_nil] at hw
    exact List.map_eq_nil_iff.mp hw.symm
  · have hmem : c.toLower ∈ t.map Char.toLower := hw ▸ List.mem_map_of_mem hc
    obtain ⟨d, hd, hlower⟩ := List.mem_map.mp hmem
    rw [← isBlank_toLower, ← hlower, isBlank_toLower]
    exact ht.solid d hd

end ToolNodes.Text
