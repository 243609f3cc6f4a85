import ToolNodes.Proofs.Command.Slash

/-!
# Lines that add a node with a token

`/mcp add <name> <url> <token>`, with any blanks around and between the words, any case of the letters
of the first two, and anything behind the token. Such a line is held by its parts, with the token left
open; whatever word stands in its place, the line is read as the call that adds the node with it.
-/

namespace ToolNodes

open Text

/-- A line that adds a node with a token, without the token. -/
structure AddLine where
  lead : List Char
  letters : List Char
  gap₁ : List Char
  action : List Char
  gap₂ : List Char
  name : List Char
  gap₃ : List Char
  url : List Char
  gap₄ : List Char
  rest : List Char
  lead_blank : ∀ c ∈ lead, isBlank c = true
  letters_mcp : sameLetters letters ['m', 'c', 'p'] = true
  isGap₁ : IsGap gap₁
  action_word : IsWord action
  action_add : lower (String.ofList action) = "add"
  isGap₂ : IsGap gap₂
  name_word : IsWord name
  isGap₃ : IsGap gap₃
  url_word : IsWord url
  isGap₄ : IsGap gap₄
  rest_ends : EndsWord rest

namespace AddLine

variable {token : String} {tail : List Char}

/-- What stands between the action and the token. -/
def arguments (l : AddLine) : List Char := l.gap₂ ++ (l.name ++ (l.gap₃ ++ (l.url ++ l.gap₄)))

/-- What stands between the command word and the token. -/
def body (l : AddLine) : List Char := l.gap₁ ++ (l.action ++ l.arguments)

def withToken (l : AddLine) (token : String) : String :=
  String.ofList (l.lead ++ (('/' :: l.letters ++ l.body) ++ (token.toList ++ l.rest)))

def command (l : AddLine) (token : String) : Command :=
  .add (String.ofList l.name) (String.ofList l.url) (some token)

/-- The words behind the action are the arguments of the command. -/
theorem arguments_command (l : AddLine) (htail : EndsWord tail) :
    Command.Arguments (l.command token) (l.arguments ++ (token.toList ++ tail)) := by
  have h : Command.Arguments (l.command token)
      (l.gap₂ ++ ((String.ofList l.name).toList ++ (l.gap₃ ++ ((String.ofList l.url).toList ++
        (l.gap₄ ++ (token.toList ++ tail)))))) :=
    .addToken l.isGap₂ l.isGap₃ l.isGap₄ htail
  unfold arguments
  simpa only [String.toList_ofList, List.append_assoc] using h

theorem solid_command (l : AddLine) (htoken : IsWord token.toList) : (l.command token).Solid := by
  refine ⟨?_, ?_, ?_⟩
  · rw [String.toList_ofList]
    exact l.name_word
  · rw [String.toList_ofList]
    exact l.url_word
  · intro t ht
    obtain rfl := Option.some.inj ht
    exact htoken

/-- The text behind the command word is read as the call. -/
theorem parse_body (l : AddLine) (htoken : IsWord token.toList) (htail : EndsWord tail) :
    Command.parse (String.ofList (l.action ++ (l.arguments ++ (token.toList ++ tail)))) =
      .ok (l.command token) := by
  have hends : EndsWord (l.arguments ++ (token.toList ++ tail)) := by
    unfold arguments
    simp only [List.append_assoc]
    exact l.isGap₂.endsWord _
  have hnamed : Command.Action.add.Named l.action := by
    unfold Command.Action.Named
    rw [l.action_add]
    decide
  exact Command.parse_of_written (l.solid_command htoken)
    ⟨l.action, _, ⟨⟨[], String.toList_ofList, by simp⟩, l.action_word, hends⟩, hnamed,
      l.arguments_command htail⟩

/-- **The line with a token is read as the call that adds the node with it.** -/
theorem read_withToken (l : AddLine) (htoken : IsWord token.toList) :
    ∃ text, Line.read (l.withToken token) = .slash text ∧
      Command.parse text = .ok (l.command token) := by
  have hstart : startsIn isBlank
      (('/' :: l.letters ++ l.body) ++ (token.toList ++ l.rest)) = false := by
    show isBlank '/' = false
    decide
  have htrim : trim (l.withToken token).toList =
      ('/' :: l.letters) ++ (l.body ++ (token.toList ++ dropTail isBlank l.rest)) := by
    unfold withToken
    rw [String.toList_ofList, trim_words l.lead_blank hstart htoken]
    simp only [List.append_assoc]
  have hsame : sameLetters ('/' :: l.letters) "/mcp".toList = true := by
    have h := l.letters_mcp
    simp only [sameLetters, decide_eq_true_eq] at h ⊢
    rw [List.map_cons, h]
    rfl
  have hbody : EndsWord (l.body ++ (token.toList ++ dropTail isBlank l.rest)) := by
    unfold body
    rw [List.append_assoc]
    exact l.isGap₁.endsWord _
  have hrest : trim (l.body ++ (token.toList ++ dropTail isBlank l.rest)) =
      l.action ++ (l.arguments ++
        (token.toList ++ dropTail isBlank (dropTail isBlank l.rest))) := by
    have hbegin : startsIn isBlank
        ((l.action ++ l.arguments) ++ (token.toList ++ dropTail isBlank l.rest)) = false := by
      rw [List.append_assoc]
      exact startsIn_word l.action_word _
    have h := trim_words l.isGap₁.blank hbegin htoken
    unfold body
    simpa only [List.append_assoc] using h
  refine ⟨_, ?_, parse_body l htoken l.rest_ends.dropTail.dropTail⟩
  unfold Line.read
  rw [htrim]
  simp only [List.cons_append, List.isEmpty_cons, Bool.false_eq_true, if_false]
  rw [← List.cons_append, stripCommand_of_sameLetters hsame hbody, hrest]

def plain (name url : List Char) (name_word : IsWord name) (url_word : IsWord url) : AddLine where
  lead := []
  letters := ['m', 'c', 'p']
  gap₁ := [' ']
  action := ['a', 'd', 'd']
  gap₂ := [' ']
  name := name
  gap₃ := [' ']
  url := url
  gap₄ := [' ']
  rest := []
  lead_blank := by simp
  letters_mcp := by decide
  isGap₁ := isGap_space
  action_word := isWord_of_all (by decide) (by decide)
  action_add := by decide
  isGap₂ := isGap_space
  name_word := name_word
  isGap₃ := isGap_space
  url_word := url_word
  isGap₄ := isGap_space
  rest_ends := by simp [EndsWord]

/-- `/mcp add <name> <url> <token>` is such a line. -/
theorem withToken_plain {name url : List Char} (name_word : IsWord name) (url_word : IsWord url)
    (token : String) :
    (plain name url name_word url_word).withToken token =
      "/mcp add " ++ String.ofList name ++ " " ++ String.ofList url ++ " " ++ token := by
  rw [← String.toList_inj]
  simp [withToken, body, arguments, plain]

end AddLine

end ToolNodes
