import ToolNodes.Proofs.Command.Direct

/-!
# Slash commands are read exactly as they are written

The first word of a text names an action, and what stands behind it writes a command of that action
(`Arguments`) or has a fault (`Fault`): every text is one or the other (`written_or_fault`). What is written
is read back whatever blanks separate it (`parse_of_written`) and a fault is reported as what it is
(`parse_of_fault`), so that the two say exactly what a text is read as.
-/

namespace ToolNodes.Command

open Text

/-! ## The grammar -/

/-- The word is one of the action's, whatever the case of its letters. -/
def Action.Named (action : Action) (word : List Char) : Prop :=
  lower (String.ofList word) ∈ action.words

/-- How many words an action takes at the least. -/
def Action.least : Action → Nat
  | list | tools => 0
  | use | remove => 1
  | add | invoke => 2

def Action.usage : Action → Usage
  | list | tools => .mcp
  | add => .add
  | use => .use
  | remove => .remove
  | invoke => .invoke

def action : Command → Action
  | list => .list
  | add _ _ _ => .add
  | use _ => .use
  | remove _ => .remove
  | tools _ => .tools
  | invoke _ _ => .invoke

/-- What can be one word in a command is one, and what can be several has no blanks around it. -/
def Solid : Command → Prop
  | list => True
  | add name url token =>
    IsWord name.toList ∧ IsWord url.toList ∧ ∀ t, token = some t → IsWord t.toList
  | use name => IsName name.toList
  | remove name => IsName name.toList
  | tools node => ∀ name, node = some name → IsName name.toList
  | invoke tool _ => IsWord tool.toList

/-- A text whose first word is `word`, and what stands behind it. -/
structure Opens (text : String) (word behind : List Char) : Prop where
  text_eq : ∃ lead, text.toList = lead ++ (word ++ behind) ∧ ∀ c ∈ lead, isBlank c = true
  isWord : IsWord word
  endsWord : EndsWord behind

/-- What may stand behind the action of a command. Behind `list` and behind a token it is anything. -/
inductive Arguments : Command → List Char → Prop where
  | list {behind : List Char} (ends : EndsWord behind) : Arguments .list behind
  | add {name url : String} {gap₁ gap₂ trail : List Char} (isGap₁ : IsGap gap₁)
      (isGap₂ : IsGap gap₂) (blank : ∀ c ∈ trail, isBlank c = true) :
      Arguments (.add name url none) (gap₁ ++ (name.toList ++ (gap₂ ++ (url.toList ++ trail))))
  | addToken {name url token : String} {gap₁ gap₂ gap₃ rest : List Char} (isGap₁ : IsGap gap₁)
      (isGap₂ : IsGap gap₂) (isGap₃ : IsGap gap₃) (ends : EndsWord rest) :
      Arguments (.add name url (some token))
        (gap₁ ++ (name.toList ++ (gap₂ ++ (url.toList ++ (gap₃ ++ (token.toList ++ rest))))))
  | use {name : String} {gap trail : List Char} (isGap : IsGap gap)
      (blank : ∀ c ∈ trail, isBlank c = true) :
      Arguments (.use name) (gap ++ (name.toList ++ trail))
  | remove {name : String} {gap trail : List Char} (isGap : IsGap gap)
      (blank : ∀ c ∈ trail, isBlank c = true) :
      Arguments (.remove name) (gap ++ (name.toList ++ trail))
  | tools {trail : List Char} (blank : ∀ c ∈ trail, isBlank c = true) : Arguments (.tools none) trail
  | toolsOf {name : String} {gap trail : List Char} (isGap : IsGap gap)
      (blank : ∀ c ∈ trail, isBlank c = true) :
      Arguments (.tools (some name)) (gap ++ (name.toList ++ trail))
  | invoke {tool : String} {payload : Json} {gap₁ gap₂ p trail : List Char} (isGap₁ : IsGap gap₁)
      (isGap₂ : IsGap gap₂) (read : Json.ofString (String.ofList p) = .ok payload)
      (blank : ∀ c ∈ trail, isBlank c = true) :
      Arguments (.invoke tool payload) (gap₁ ++ (tool.toList ++ (gap₂ ++ (p ++ trail))))

/-- The text writes the command: a word of its action, in any case, and its arguments. -/
def Written (command : Command) (text : String) : Prop :=
  ∃ word behind, Opens text word behind ∧ command.action.Named word ∧ Arguments command behind

/-- What is wrong with a text that writes no command. -/
inductive Fault (text : String) : CommandError → Prop where
  | blank (blank : ∀ c ∈ text.toList, isBlank c = true) : Fault text (.usage .mcp)
  | unknown {word behind : List Char} (opens : Opens text word behind)
      (unnamed : ∀ action : Action, ¬ action.Named word) :
      Fault text (.unknownAction (String.ofList word))
  | short {action : Action} {word behind : List Char} (opens : Opens text word behind)
      (named : action.Named word) (few : (words behind).length < action.least) :
      Fault text (.usage action.usage)
  | payload {word tool gap₁ gap₂ p trail : List Char} {e : Json.Error}
      (opens : Opens text word (gap₁ ++ (tool ++ (gap₂ ++ (p ++ trail)))))
      (named : Action.invoke.Named word) (isGap₁ : IsGap gap₁) (isWord : IsWord tool)
      (isGap₂ : IsGap gap₂) (isName : IsName p) (blank : ∀ c ∈ trail, isBlank c = true)
      (unread : Json.ofString (String.ofList p) = .error e) :
      Fault text (.invalidJson e)

/-! ## Actions by their words -/

/-- No word is shared by two actions. -/
theorem Action.ofWord?_eq_some_iff {word : String} {action : Action} :
    Action.ofWord? word = some action ↔ word ∈ action.words := by
  constructor
  · intro h
    simpa using List.find?_some h
  · intro h
    cases action <;> simp only [Action.words, List.mem_cons, List.not_mem_nil, or_false] at h
    case list | add | remove | tools =>
      subst h
      decide
    case use =>
      rcases h with rfl | rfl <;> decide
    case invoke =>
      rcases h with rfl | rfl | rfl <;> decide

theorem Action.ofWord?_eq_none_iff {word : String} :
    Action.ofWord? word = none ↔ ∀ action : Action, word ∉ action.words := by
  constructor
  · intro h action hmem
    rw [Action.ofWord?_eq_some_iff.mpr hmem] at h
    exact absurd h (by simp)
  · intro h
    cases hfound : Action.ofWord? word with
    | none => rfl
    | some action => exact absurd (Action.ofWord?_eq_some_iff.mp hfound) (h action)

/-- The words of the actions are plain lower-case letters. -/
theorem Action.plain_of_mem_words {action : Action} {word : String} (h : word ∈ action.words) :
    word.toList ≠ [] ∧ ∀ c ∈ word.toList, c.toLower = c ∧ c.toNat < 0x80 ∧ isBlank c = false := by
  have hall : (action.words.all fun w => !w.toList.isEmpty &&
      w.toList.all fun c => c.toLower = c && c.toNat < 0x80 && !isBlank c) = true := by
    cases action <;> decide
  simpa [and_assoc] using List.all_eq_true.mp hall word h

/-- **Every word of an action names it in any case of its letters.** -/
theorem Action.named_of_sameLetters {action : Action} {synonym : String} {word : List Char}
    (hmem : synonym ∈ action.words) (h : sameLetters word synonym.toList = true) :
    IsWord word ∧ action.Named word := by
  obtain ⟨hne, hplain⟩ := Action.plain_of_mem_words hmem
  constructor
  · exact isWord_of_sameLetters h ⟨hne, fun c hc => (hplain c hc).2.2⟩
  · unfold Action.Named
    rw [lower_of_sameLetters h fun c hc => ⟨(hplain c hc).1, (hplain c hc).2.1⟩]
    exact hmem

/-! ## Reading -/

variable {text : String} {command : Command} {action : Action} {word behind : List Char}

theorem parse_of_blank (h : ∀ c ∈ text.toList, isBlank c = true) :
    parse text = .error (.usage .mcp) := by
  unfold parse
  rw [trim_of_blank h]
  rfl

/-- What the reader takes from a text: its first word, and what trimming leaves of the rest. -/
theorem Opens.taken (h : Opens text word behind) :
    (trim text.toList).isEmpty = false ∧ firstWord (trim text.toList) = word ∧
      afterFirstWord (trim text.toList) = trim behind := by
  obtain ⟨⟨lead, htext, hlead⟩, hword, hends⟩ := h
  have hstart : startsIn isBlank ([] ++ (word ++ behind)) = false := startsIn_word hword behind
  have htrim : trim text.toList = word ++ dropTail isBlank behind := by
    rw [htext]
    exact trim_words hlead hstart hword
  rw [htrim]
  refine ⟨by simp [hword.ne], firstWord_word hword hends.dropTail, ?_⟩
  rw [afterFirstWord_word hword hends.dropTail, trim_dropTail]

theorem parse_of_named (h : Opens text word behind) (hnamed : action.Named word) :
    parse text = ofAction action (trim behind) := by
  obtain ⟨hne, hfirst, hafter⟩ := h.taken
  unfold parse
  simp only [hne, hfirst, hafter, Bool.false_eq_true, if_false]
  rw [Action.ofWord?_eq_some_iff.mpr hnamed]

theorem parse_of_unnamed (h : Opens text word behind)
    (hunnamed : ∀ action : Action, ¬ action.Named word) :
    parse text = .error (.unknownAction (String.ofList word)) := by
  obtain ⟨hne, hfirst, -⟩ := h.taken
  unfold parse
  simp only [hne, hfirst, Bool.false_eq_true, if_false]
  rw [Action.ofWord?_eq_none_iff.mpr hunnamed]

/-! ## Arguments are read -/

theorem ofAction_invoke {arguments tool p : List Char} (hsplit : splitFirst arguments = (tool, p))
    (htool : tool ≠ []) (hp : p ≠ []) :
    ofAction .invoke arguments = (payload p).map (.invoke (String.ofList tool)) := by
  simp [ofAction, hsplit, htool, hp]

/-- **What is written is read back**, one case for each form of arguments. -/
theorem ofAction_of_arguments (h : Arguments command behind) (hsolid : command.Solid) :
    ofAction command.action (trim behind) = .ok command := by
  cases h with
  | list ends => rfl
  | add isGap₁ isGap₂ blank =>
      obtain ⟨hname, hurl, -⟩ := hsolid
      simp only [action, ofAction, words_trim]
      rw [words_gap isGap₁, words_word hname (isGap₂.endsWord _), words_gap isGap₂,
        words_word hurl (endsWord_of_blank blank), words_of_blank blank]
      simp [String.ofList_toList]
  | addToken isGap₁ isGap₂ isGap₃ ends =>
      obtain ⟨hname, hurl, htoken⟩ := hsolid
      simp only [action, ofAction, words_trim]
      rw [words_gap isGap₁, words_word hname (isGap₂.endsWord _), words_gap isGap₂,
        words_word hurl (isGap₃.endsWord _), words_gap isGap₃, words_word (htoken _ rfl) ends]
      simp [String.ofList_toList]
  | use isGap blank =>
      have hname : IsName _ := hsolid
      simp [action, ofAction, trim_name isGap.blank hname blank, hname.ne]
  | remove isGap blank =>
      have hname : IsName _ := hsolid
      simp [action, ofAction, trim_name isGap.blank hname blank, hname.ne]
  | tools blank =>
      simp [action, ofAction, trim_of_blank blank]
  | toolsOf isGap blank =>
      have hname : IsName _ := hsolid _ rfl
      simp [action, ofAction, trim_name isGap.blank hname blank, hname.ne]
  | invoke isGap₁ isGap₂ read blank =>
      have htool : IsWord _ := hsolid
      obtain ⟨hread, hne⟩ := Json.ofString_trim read
      have hsplit := splitFirst_trim isGap₁.blank htool isGap₂ hne blank
      refine (ofAction_invoke hsplit htool.ne hne).trans ?_
      unfold payload
      rw [hread, String.ofList_toList]
      rfl

theorem parse_of_written (hsolid : command.Solid) (h : command.Written text) :
    parse text = .ok command := by
  obtain ⟨word, behind, hopens, hnamed, harguments⟩ := h
  rw [parse_of_named hopens hnamed]
  exact ofAction_of_arguments harguments hsolid

/-! ## Faults are reported -/

theorem ofAction_of_short (hshort : (words behind).length < action.least) :
    ofAction action (trim behind) = .error (.usage action.usage) := by
  have hnone : ∀ {n}, n < 1 → (words behind).length = n → trim behind = [] := by
    intro n hn hlength
    apply trim_of_blank
    exact words_eq_nil_iff.mp (List.eq_nil_of_length_eq_zero (by omega))
  cases action with
  | list => exact absurd hshort (Nat.not_lt_zero _)
  | tools => exact absurd hshort (Nat.not_lt_zero _)
  | use => simp [ofAction, hnone hshort rfl, Action.usage]
  | remove => simp [ofAction, hnone hshort rfl, Action.usage]
  | add =>
      simp only [ofAction, words_trim]
      split
      · rename_i hwords
        rw [hwords] at hshort
        exact absurd hshort (by simp [Action.least])
      · rfl
  | invoke =>
      rcases (words_lt_two_iff behind).mp hshort with hnil | hword
      · rw [hnil]
        rfl
      · simp [ofAction, splitFirst_of_word hword, Action.usage]

/-- **A fault is reported as what it is.** -/
theorem parse_of_fault {error : CommandError} (h : Fault text error) : parse text = .error error := by
  cases h with
  | blank blank => exact parse_of_blank blank
  | unknown opens unnamed => exact parse_of_unnamed opens unnamed
  | short opens named few =>
      rw [parse_of_named opens named]
      exact ofAction_of_short few
  | payload opens named isGap₁ isWord isGap₂ isName blank unread =>
      have htrim := trim_eq_self isName.start isName.stop
      have hne := isName.ne
      rw [← htrim] at hne
      have hsplit := splitFirst_trim isGap₁.blank isWord isGap₂ hne blank
      rw [htrim] at hsplit
      rw [parse_of_named opens named, ofAction_invoke hsplit isWord.ne isName.ne]
      unfold payload
      rw [unread]
      rfl

/-! ## Every text is one or the other -/

theorem exists_toList (s : List Char) : ∃ t : String, t.toList = s :=
  ⟨String.ofList s, String.toList_ofList⟩

/-- Behind `add` there are the words of a node, or too few. -/
theorem add_or_short (h : EndsWord behind) :
    (∃ name url token, Solid (.add name url token) ∧ Arguments (.add name url token) behind) ∨
      (words behind).length < Action.least .add := by
  rcases h.blank_or_word with hblank | ⟨gap₁, name, rest₁, rfl, hgap₁, hname, hends₁⟩
  · rw [words_of_blank hblank]
    exact Or.inr (by decide)
  rcases hends₁.blank_or_word with hblank | ⟨gap₂, url, rest₂, rfl, hgap₂, hurl, hends₂⟩
  · rw [words_gap hgap₁, words_word hname hends₁, words_of_blank hblank]
    exact Or.inr Nat.one_lt_two
  obtain ⟨name, rfl⟩ := exists_toList name
  obtain ⟨url, rfl⟩ := exists_toList url
  rcases hends₂.blank_or_word with hblank | ⟨gap₃, token, rest₃, rfl, hgap₃, htoken, hends₃⟩
  · exact Or.inl ⟨name, url, none, ⟨hname, hurl, by simp⟩, .add hgap₁ hgap₂ hblank⟩
  · obtain ⟨token, rfl⟩ := exists_toList token
    refine Or.inl ⟨name, url, some token, ⟨hname, hurl, ?_⟩, .addToken hgap₁ hgap₂ hgap₃ hends₃⟩
    intro t ht
    obtain rfl := Option.some.inj ht
    exact htoken

/-- Behind the word of an action there are the arguments of a command, or too few words, or a payload that
is not read. -/
theorem arguments_or_fault (h : Opens text word behind) (hnamed : action.Named word) :
    (∃ command : Command, command.action = action ∧ command.Solid ∧ Arguments command behind) ∨
      ∃ error, Fault text error := by
  have hends := h.endsWord
  have hshort : (words behind).length < action.least → ∃ error, Fault text error :=
    fun hfew => ⟨_, .short h hnamed hfew⟩
  cases action with
  | list => exact Or.inl ⟨.list, rfl, trivial, .list hends⟩
  | add =>
      rcases add_or_short hends with ⟨name, url, token, hsolid, harguments⟩ | hfew
      · exact Or.inl ⟨.add name url token, rfl, hsolid, harguments⟩
      · exact Or.inr (hshort hfew)
  | use =>
      rcases hends.blank_or_name with hblank | ⟨gap, name, trail, rfl, hgap, hname, htrail⟩
      · exact Or.inr (hshort (by rw [words_of_blank hblank]; decide))
      · obtain ⟨name, rfl⟩ := exists_toList name
        exact Or.inl ⟨.use name, rfl, hname, .use hgap htrail⟩
  | remove =>
      rcases hends.blank_or_name with hblank | ⟨gap, name, trail, rfl, hgap, hname, htrail⟩
      · exact Or.inr (hshort (by rw [words_of_blank hblank]; decide))
      · obtain ⟨name, rfl⟩ := exists_toList name
        exact Or.inl ⟨.remove name, rfl, hname, .remove hgap htrail⟩
  | tools =>
      rcases hends.blank_or_name with hblank | ⟨gap, name, trail, rfl, hgap, hname, htrail⟩
      · exact Or.inl ⟨.tools none, rfl, by simp [Solid], .tools hblank⟩
      · obtain ⟨name, rfl⟩ := exists_toList name
        refine Or.inl ⟨.tools (some name), rfl, ?_, .toolsOf hgap htrail⟩
        intro n hn
        obtain rfl := Option.some.inj hn
        exact hname
  | invoke =>
      rcases hends.blank_or_word with hblank | ⟨gap₁, tool, rest, rfl, hgap₁, htool, hrest⟩
      · exact Or.inr (hshort (by rw [words_of_blank hblank]; decide))
      rcases hrest.blank_or_name with hblank | ⟨gap₂, p, trail, rfl, hgap₂, hp, htrail⟩
      · refine Or.inr (hshort ?_)
        rw [words_gap hgap₁, words_word htool hrest, words_of_blank hblank]
        exact Nat.one_lt_two
      obtain ⟨tool, rfl⟩ := exists_toList tool
      cases hread : Json.ofString (String.ofList p) with
      | ok payload =>
          exact Or.inl ⟨.invoke tool payload, rfl, htool, .invoke hgap₁ hgap₂ hread htrail⟩
      | error e => exact Or.inr ⟨_, .payload h hnamed hgap₁ htool hgap₂ hp htrail hread⟩

/-- **Every text writes a command or has a fault.** -/
theorem written_or_fault (text : String) :
    (∃ command : Command, command.Solid ∧ command.Written text) ∨ ∃ error, Fault text error := by
  rcases blank_or_word text.toList with hblank | ⟨lead, word, behind, htext, hlead, hword, hends⟩
  · exact Or.inr ⟨_, .blank hblank⟩
  have hopens : Opens text word behind := ⟨⟨lead, htext, hlead⟩, hword, hends⟩
  cases hfound : Action.ofWord? (lower (String.ofList word)) with
  | none => exact Or.inr ⟨_, .unknown hopens (Action.ofWord?_eq_none_iff.mp hfound)⟩
  | some action =>
      have hnamed : action.Named word := Action.ofWord?_eq_some_iff.mp hfound
      rcases arguments_or_fault hopens hnamed with ⟨command, rfl, hsolid, harguments⟩ | hfault
      · exact Or.inl ⟨command, hsolid, word, behind, hopens, hnamed, harguments⟩
      · exact Or.inr hfault

/-- The parts of a command that is read are words and names. -/
theorem solid_of_parse (h : parse text = .ok command) : command.Solid := by
  rcases written_or_fault text with ⟨written, hsolid, hwritten⟩ | ⟨error, hfault⟩
  · rw [parse_of_written hsolid hwritten] at h
    rw [← Except.ok.inj h]
    exact hsolid
  · rw [parse_of_fault hfault] at h
    exact absurd h (by simp)

/-- **Slash commands are read exactly as they are written.** A text is read as a command exactly if it
writes it, with what is one word in the command free of blanks and what may be several free of blanks around
it, and it fails with an error exactly if it has that fault. Whatever the blanks between the parts and
whatever the case of the action, each of the words for it will do. -/
theorem parse_iff_written :
    (∀ (text : String) (command : Command),
      parse text = .ok command ↔ command.Solid ∧ command.Written text) ∧
    (∀ (text : String) (error : CommandError), parse text = .error error ↔ Fault text error) ∧
    ∀ action : Action, ∀ synonym ∈ action.words, ∀ word : List Char,
      sameLetters word synonym.toList = true → IsWord word ∧ action.Named word := by
  refine ⟨?_, ?_, fun action synonym hmem word h => Action.named_of_sameLetters hmem h⟩
  · intro text command
    refine ⟨fun hread => ?_, fun ⟨hsolid, hwritten⟩ => parse_of_written hsolid hwritten⟩
    rcases written_or_fault text with ⟨command', hsolid, hwritten⟩ | ⟨error, hfault⟩
    · rw [parse_of_written hsolid hwritten] at hread
      obtain rfl := Except.ok.inj hread
      exact ⟨hsolid, hwritten⟩
    · rw [parse_of_fault hfault] at hread
      exact absurd hread (by simp)
  · intro text error
    refine ⟨fun hread => ?_, parse_of_fault⟩
    rcases written_or_fault text with ⟨command, hsolid, hwritten⟩ | ⟨error', hfault⟩
    · rw [parse_of_written hsolid hwritten] at hread
      exact absurd hread (by simp)
    · rw [parse_of_fault hfault] at hread
      obtain rfl := Except.error.inj hread
      exact hfault

/-- The blanks need not be ASCII, and those inside a name stay. -/
example : (parse "\u3000SELECT\u2003my  node\n").toOption.bind
    (fun | .use name => some name | _ => none) = some "my  node" := by
  decide +kernel

end ToolNodes.Command
