import ToolNodes.Proofs.Command.Slash
import ToolNodes.Proofs.Session.Run
import ToolNodes.Proofs.Text.Utf8

/-!
# Calls that are typed

A call on the registry is asked for with words: a verb, and the operands that the call is made with. Typed
behind `/mcp` with a space between any two, the words are read as the command of the call
(`command?_line`); and lines that are typed one behind the other are read one by one (`linesOf_typed`).
-/

namespace ToolNodes

open Text

/-! ## Words of a call -/

namespace Registry.Edit

def verb : Edit → String
  | add _ _ _ => "add"
  | remove _ => "remove"
  | use _ => "use"

def operands : Edit → List String
  | add name url token => name :: url :: token.toList
  | remove name => [name]
  | use name => [name]

def words (e : Edit) : List String := e.verb :: e.operands

def line (e : Edit) : String := " ".intercalate ("/mcp" :: e.words)

def command : Edit → Command
  | add name url token => .add name url token
  | remove name => .remove name
  | use name => .use name

def action : Edit → Command.Action
  | add _ _ _ => .add
  | remove _ => .remove
  | use _ => .use

def report : Edit → String
  | add name url _ => "Added MCP node '" ++ name ++ "' -> " ++ url
  | remove name => "Removed MCP node '" ++ name ++ "'"
  | use name => "Active MCP set to '" ++ name ++ "'"

/-- The operands of a call are not empty and have no blanks in them. -/
def Solid (e : Edit) : Prop := ∀ w ∈ e.operands, IsWord w.toList

theorem isWord_verb (e : Edit) : IsWord e.verb.toList := by
  have hword : ∀ verb ∈ ["add", "remove", "use"], IsWord verb.toList := by
    intro verb hverb
    simp only [List.mem_cons, List.not_mem_nil, or_false] at hverb
    rcases hverb with rfl | rfl | rfl <;> exact isWord_of_all (by decide) (by decide)
  cases e <;> exact hword _ (by simp [verb])

theorem ofWord?_verb (e : Edit) : Command.Action.ofWord? (lower e.verb) = some e.action := by
  have hadd : Command.Action.ofWord? (lower "add") = some .add := by decide
  have hremove : Command.Action.ofWord? (lower "remove") = some .remove := by decide
  have huse : Command.Action.ofWord? (lower "use") = some .use := by decide
  cases e with
  | add name url token => exact hadd
  | remove name => exact hremove
  | use name => exact huse

variable {e : Edit}

theorem Solid.operands (h : e.Solid) : ∀ w ∈ e.operands.map String.toList, IsWord w := by
  intro w hw
  obtain ⟨operand, hoperand, rfl⟩ := List.mem_map.mp hw
  exact h operand hoperand

theorem Solid.words (h : e.Solid) : ∀ w ∈ e.words.map String.toList, IsWord w :=
  List.forall_mem_cons.mpr ⟨isWord_verb e, h.operands⟩

theorem toList_line (e : Edit) :
    e.line.toList = [' '].intercalate ("/mcp".toList :: e.words.map String.toList) :=
  String.toList_intercalate

end Registry.Edit

/-! ## Reading the words of a line -/

section Words

variable {verb : List Char} {ws : List (List Char)}

theorem isWord_mcp : IsWord "/mcp".toList := isWord_of_all (by decide) (by decide)

theorem Line.read_words (h : ∀ w ∈ ws, IsWord w) {line : String}
    (hline : line.toList = [' '].intercalate ("/mcp".toList :: ws)) :
    Line.read line = .slash (String.ofList ([' '].intercalate ws)) := by
  have hne : ("/mcp".toList ++ spaced ws).isEmpty = false := rfl
  unfold Line.read
  rw [hline, trim_intercalate (List.forall_mem_cons.mpr ⟨isWord_mcp, h⟩), intercalate_space]
  simp only [hne, Bool.false_eq_true, if_false]
  rw [stripCommand_of_sameLetters (by decide) (endsWord_spaced ws), trim_spaced h]

theorem Command.parse_words (hverb : IsWord verb) (h : ∀ w ∈ ws, IsWord w) {action : Action}
    (haction : Action.ofWord? (lower (String.ofList verb)) = some action) :
    Command.parse (String.ofList ([' '].intercalate (verb :: ws))) =
      ofAction action ([' '].intercalate ws) := by
  have hopens : Opens (String.ofList ([' '].intercalate (verb :: ws))) verb (spaced ws) := by
    refine ⟨⟨[], ?_, by simp⟩, hverb, endsWord_spaced ws⟩
    rw [String.toList_ofList, intercalate_space, List.nil_append]
  rw [parse_of_named hopens (Action.ofWord?_eq_some_iff.mp haction), trim_spaced h]

end Words

namespace Registry.Edit

variable {e : Edit}

theorem ofAction_operands (h : e.Solid) :
    Command.ofAction e.action ([' '].intercalate (e.operands.map String.toList)) =
      .ok e.command := by
  cases e with
  | add name url token =>
      simp only [action, Command.ofAction, words_intercalate h.operands]
      cases token with
      | none => simp [operands, command]
      | some token => simp [operands, command]
  | remove name =>
      have hne := (h name (List.mem_singleton.mpr rfl)).ne
      simp [action, Command.ofAction, operands, command, hne]
  | use name =>
      have hne := (h name (List.mem_singleton.mpr rfl)).ne
      simp [action, Command.ofAction, operands, command, hne]

/-- **The line of a call is read as its command.** -/
theorem command?_line (h : e.Solid) : Line.command? e.line = some e.command := by
  have hverb : Command.Action.ofWord? (lower (String.ofList e.verb.toList)) = some e.action := by
    rw [String.ofList_toList]
    exact ofWord?_verb e
  unfold Line.command?
  rw [Line.read_words h.words (toList_line e)]
  simp only [words, List.map_cons]
  rw [Command.parse_words (isWord_verb e) h.operands hverb, ofAction_operands h]
  rfl

/-- In online mode, the line of a call makes the call and reports it. -/
theorem turn_line [Url.Idna] {s : Session} (hmode : s.mode = .online) (h : e.Solid) (peer : Peer) :
    s.turn peer e.line = s.changeTurn peer (s.registry.edit e) .online e.report := by
  rw [Session.turn_of_command s peer (command?_line h)]
  cases e with
  | add name url token =>
      show s.changeTurn peer _ s.mode _ = _
      rw [hmode]
      rfl
  | remove name =>
      show (if s.mode = .offline name then _ else s.changeTurn peer _ s.mode _) = _
      rw [hmode, if_neg Mode.noConfusion]
      rfl
  | use name =>
      show s.changeTurn peer _ s.mode _ = _
      rw [hmode]
      rfl

theorem unbroken_line (h : e.Solid) : '\n' ∉ e.line.toList ∧ '\r' ∉ e.line.toList := by
  have hwords := List.forall_mem_cons.mpr ⟨isWord_mcp, h.words⟩
  rw [toList_line]
  constructor
  · intro hmem
    exact absurd (solid_of_mem_intercalate hwords hmem) (by decide)
  · intro hmem
    exact absurd (solid_of_mem_intercalate hwords hmem) (by decide)

end Registry.Edit

/-! ## Lines of an input -/

/-- Some lines as an input, each with a line feed behind it. -/
def typed (lines : List String) : List UInt8 :=
  Utf8.encode (String.join (lines.map fun line => line ++ "\n"))

theorem typed_cons (line : String) (lines : List String) :
    typed (line :: lines) = Utf8.encode line ++ 10 :: typed lines := by
  unfold typed
  rw [List.map_cons, String.join_cons, Utf8.encode_append, Utf8.encode_append, List.append_assoc]
  rfl

theorem splitOn_typed {lines : List String} (h : ∀ line ∈ lines, '\n' ∉ line.toList) :
    splitOn (· = 10) (typed lines) = lines.map Utf8.encode ++ [[]] := by
  induction lines with
  | nil => rfl
  | cons line lines ih =>
      have hnone : ∀ b ∈ Utf8.encode line, decide (b = 10) = false := by
        intro b hb
        refine decide_eq_false ?_
        rintro rfl
        exact h line List.mem_cons_self (Utf8.mem_of_mem_encode (by decide) hb)
      rw [typed_cons, splitOn_append_cons hnone (by decide),
        ih fun l hl => h l (List.mem_cons_of_mem _ hl)]
      rfl

/-- **What is typed is read line by line**, when no line has a line break of either kind in it. -/
theorem linesOf_typed {lines : List String}
    (h : ∀ line ∈ lines, '\n' ∉ line.toList ∧ '\r' ∉ line.toList) :
    Session.linesOf (typed lines) = lines.map Utf8.encode := by
  have hreturn : ∀ line ∈ lines, Session.withoutReturn (Utf8.encode line) = Utf8.encode line := by
    intro line hline
    unfold Session.withoutReturn
    rw [if_neg]
    intro hlast
    exact (h line hline).2 (Utf8.mem_of_mem_encode (by decide) (List.mem_of_getLast? hlast))
  unfold Session.linesOf
  simp only
  rw [splitOn_typed fun line hline => (h line hline).1, List.dropLast_concat,
    List.getLast?_concat, List.map_map]
  simp only [Option.filter, List.isEmpty_nil, Bool.not_true, Bool.false_eq_true, if_false,
    Option.toList_none, List.append_nil]
  exact List.map_congr_left hreturn

end ToolNodes
