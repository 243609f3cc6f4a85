import ToolNodes.Proofs.Text.Words

/-!
# Command words

A line is dispatched by its front: as many bytes of it as the command word has are cut off and compared.
What a command is followed by is read by words. Both see the same word (`stripCommand_eq`), for the case
of a letter does not change its length, and no blank stands in a word. The cut is made by two slices, and
the second could begin inside a character; but a character begins where the first slice ends, so it never
does (`stripSliced_eq`).
-/

namespace ToolNodes

open Text

/-! ## Slices -/

namespace Text

/-- A slice was to begin where no character does. -/
structure SliceFault where
  position : Nat
deriving DecidableEq, Repr

/-- The text in front of a byte position, if a character ends there. -/
def sliceTo? (s : String) (n : Nat) : Option String :=
  if h : String.Pos.Raw.IsValid s ⟨n⟩ then some (s.sliceTo (s.pos ⟨n⟩ h)).copy else none

/-- The text from a byte position on. It is a fault to take it where no character begins. -/
def sliceFrom (s : String) (n : Nat) : Except SliceFault String :=
  if h : String.Pos.Raw.IsValid s ⟨n⟩ then .ok (s.sliceFrom (s.pos ⟨n⟩ h)).copy else .error ⟨n⟩

variable {s : String} {n : Nat}

/-- Both slices are found at once, and are what a cut makes. -/
theorem slices_of_isValid (h : String.Pos.Raw.IsValid s ⟨n⟩) :
    ∃ head rest, sliceTo? s n = some head ∧ sliceFrom s n = .ok rest ∧
      cutBytes n s.toList = some (head.toList, rest.toList) := by
  have hsplits := (s.pos ⟨n⟩ h).splits
  have hlength : utf8Length (s.sliceTo (s.pos ⟨n⟩ h)).copy.toList = n := by
    rw [← utf8ByteSize_ofList, String.ofList_toList]
    exact (congrArg String.Pos.Raw.byteIdx hsplits.offset_eq_rawEndPos).symm
  have happend : s.toList = (s.sliceTo (s.pos ⟨n⟩ h)).copy.toList ++
      (s.sliceFrom (s.pos ⟨n⟩ h)).copy.toList := by
    rw [← String.toList_append, ← hsplits.eq_append]
  refine ⟨_, _, dif_pos h, dif_pos h, ?_⟩
  have hcut := cutBytes_append (s.sliceTo (s.pos ⟨n⟩ h)).copy.toList
    (s.sliceFrom (s.pos ⟨n⟩ h)).copy.toList
  rw [hlength, ← happend] at hcut
  exact hcut

/-- Where no character begins, nothing is cut. -/
theorem cutBytes_of_not_isValid (h : ¬ String.Pos.Raw.IsValid s ⟨n⟩) : cutBytes n s.toList = none := by
  cases hcut : cutBytes n s.toList with
  | none => rfl
  | some parts =>
      obtain ⟨hparts, hlength⟩ := cutBytes_eq_some hcut
      refine absurd (String.Pos.Raw.isValid_iff_exists_append.mpr
        ⟨String.ofList parts.1, String.ofList parts.2, ?_, ?_⟩) h
      · rw [← String.toList_inj, hparts, String.toList_append, String.toList_ofList,
          String.toList_ofList]
      · rw [← hlength, ← utf8ByteSize_ofList]
        rfl

end Text

/-- The trimmed text behind a command word, where the line is cut by one slice after the other. -/
def stripSliced (command line : String) : Except SliceFault (Option String) :=
  match sliceTo? line command.utf8ByteSize with
  | none => .ok none
  | some head =>
    (sliceFrom line command.utf8ByteSize).map fun rest =>
      if sameLetters head.toList command.toList && rest.toList.head?.all isBlank then
        some (trimmed rest)
      else none

/-- **Slicing a line never fails**, whatever characters stand where the command word would end. -/
theorem stripSliced_eq (command line : String) :
    stripSliced command line = .ok ((stripCommand command line.toList).map String.ofList) := by
  unfold stripSliced stripCommand
  by_cases h : String.Pos.Raw.IsValid line ⟨command.utf8ByteSize⟩
  · obtain ⟨head, rest, hhead, hrest, hcut⟩ := slices_of_isValid h
    rw [hcut, Option.bind_some, hhead]
    simp only
    rw [hrest]
    refine congrArg Except.ok ?_
    simp only
    split
    · rfl
    · rfl
  · have hhead : sliceTo? line command.utf8ByteSize = none := dif_neg h
    rw [cutBytes_of_not_isValid h, hhead]
    rfl

/-! ## First words -/

variable {command : String} {rest s : List Char}

/-- What it takes for a command word to be stripped. -/
theorem stripCommand_eq_some (h : stripCommand command s = some rest) :
    ∃ front behind, s = front ++ behind ∧ sameLetters front command.toList = true ∧
      EndsWord behind ∧ rest = trim behind := by
  unfold stripCommand at h
  obtain ⟨⟨front, behind⟩, hcut, hstrip⟩ := Option.bind_eq_some_iff.mp h
  split at hstrip
  · rename_i hboth
    obtain ⟨hsame, hends⟩ := Bool.and_eq_true_iff.mp hboth
    refine ⟨front, behind, (cutBytes_eq_some hcut).1, hsame, ?_, (Option.some.inj hstrip).symm⟩
    intro c hc
    simpa [hc] using hends
  · exact absurd hstrip (by simp)

/-- **A command word is stripped exactly if it is the first word**, and what is left is what stands behind
the first word. -/
theorem stripCommand_eq (hword : IsWord command.toList) (s : List Char) :
    stripCommand command s =
      if sameLetters (firstWord s) command.toList = true then some (afterFirstWord s) else none := by
  split
  · rename_i hsame
    obtain ⟨behind, hs, hends⟩ := firstWord_append s
    have hstrip := stripCommand_of_sameLetters hsame hends
    have hafter := afterFirstWord_word (isWord_of_sameLetters hsame hword) hends
    rw [← hs] at hstrip hafter
    rw [hstrip, hafter]
  · rename_i hother
    cases hstrip : stripCommand command s with
    | none => rfl
    | some rest =>
        obtain ⟨front, behind, rfl, hsame, hends, -⟩ := stripCommand_eq_some hstrip
        rw [firstWord_word (isWord_of_sameLetters hsame hword) hends] at hother
        exact absurd hsame hother

theorem isSome_stripCommand (hword : IsWord command.toList) (s : List Char) :
    (stripCommand command s).isSome = sameLetters (firstWord s) command.toList := by
  rw [stripCommand_eq hword]
  split
  · rename_i hsame
    rw [hsame]
    rfl
  · rename_i hother
    rw [Bool.not_eq_true] at hother
    rw [hother]
    rfl

theorem isWord_commands : ∀ word ∈ ["/mcp", "/mode", "/quit", "/exit"], IsWord word.toList := by
  intro word hword
  simp only [List.mem_cons, List.not_mem_nil, or_false] at hword
  rcases hword with rfl | rfl | rfl | rfl <;> exact isWord_of_all (by decide) (by decide)

/-- **Lines are dispatched by their first word**, whatever the case of its letters. -/
theorem Line.read_eq (line : String) :
    Line.read line =
      let s := trim line.toList
      let opens (word : String) : Bool := sameLetters (firstWord s) word.toList
      if s = [] then .blank
      else if opens "/mcp" then .slash (String.ofList (afterFirstWord s))
      else if opens "/mode" then .mode (String.ofList (afterFirstWord s))
      else if opens "/quit" || opens "/exit" then .quit
      else .plain (String.ofList s) := by
  have hword := isWord_commands
  simp only [List.forall_mem_cons, List.not_mem_nil, false_implies, implies_true, and_true] at hword
  obtain ⟨hmcp, hmode, hquit, hexit⟩ := hword
  unfold Line.read
  simp only [isSome_stripCommand hquit, isSome_stripCommand hexit, stripCommand_eq hmcp,
    stripCommand_eq hmode, List.isEmpty_iff]
  split
  · rfl
  cases sameLetters (firstWord (trim line.toList)) "/mcp".toList with
  | true => rfl
  | false =>
      cases sameLetters (firstWord (trim line.toList)) "/mode".toList with
      | true => rfl
      | false => rfl

/-- **Dispatching a line and splitting it agree on its first word.** A command word is stripped from a line
exactly if the text in front of the first blank has its letters, in any case, and then what is left is what
splitting leaves; and no line makes a slice begin inside a character. -/
theorem strips_iff_splits (hword : IsWord command.toList) (line : String) :
    (∀ rest, stripCommand command line.toList = some rest ↔
      ∃ head, splitFirst line.toList = (head, rest) ∧ sameLetters head command.toList = true) ∧
    (stripCommand command line.toList = none ↔
      sameLetters (splitFirst line.toList).1 command.toList = false) ∧
    stripSliced command line = .ok ((stripCommand command line.toList).map String.ofList) := by
  have hstrip := stripCommand_eq hword line.toList
  refine ⟨fun rest => ?_, ?_, stripSliced_eq command line⟩
  · rw [hstrip]
    constructor
    · intro h
      split at h
      · rename_i hsame
        exact ⟨_, congrArg (Prod.mk _) (Option.some.inj h), hsame⟩
      · exact absurd h (by simp)
    · rintro ⟨head, hsplit, hsame⟩
      obtain ⟨rfl, rfl⟩ := Prod.mk.inj hsplit
      rw [if_pos hsame]
  · rw [hstrip, ← Bool.not_eq_true]
    show _ ↔ ¬ sameLetters (firstWord line.toList) command.toList = true
    split
    · rename_i hsame
      simp [hsame]
    · rename_i hother
      simp [hother]

/-- In the first line a blank of three bytes stands behind the command word, and in the second a character
of two bytes stands across the place where the word would end. -/
theorem strips_iff_splits_multibyte :
    stripCommand "/mcp" "/MCP\u3000list".toList = some "list".toList ∧
    stripCommand "/mcp" "/mcé list".toList = none ∧ stripSliced "/mcp" "/mcé list" = .ok none := by
  have hword : IsWord "/mcp".toList := isWord_commands _ (by simp)
  obtain ⟨-, hnone, hsliced⟩ := strips_iff_splits hword "/mcé list"
  have hother : stripCommand "/mcp" "/mcé list".toList = none := hnone.mpr (by decide)
  rw [hother] at hsliced
  exact ⟨((strips_iff_splits hword "/MCP\u3000list").1 _).mpr ⟨"/MCP".toList, by decide, by decide⟩,
    hother, hsliced⟩

end ToolNodes
