import ToolNodes.Proofs.Session.History
import ToolNodes.Proofs.Session.Offline

/-!
# Lines that report nothing

What a line reports goes to the output and ends in a line break, so a line without output has had no
success. What it may have had is a failure, and failures leave the nodes and the mode as they were, and
the store too, unless the save breaks off in the file (`inert_of_unreported`). The history is the one
exception: a direct call enters it before the call is made, and stays there if the call fails
(`history_of_unreported`).
-/

namespace ToolNodes.Session

/-- The line is a command that saves, and the save breaks off in the file. -/
def BreaksOff (s : Session) (line : String) : Prop :=
  ∃ command e, Line.command? line = some command ∧ command.edit? = some e ∧ s.registry.BreaksOff e

/-- A turn that leaves the nodes, the active name and the mode alone, and what is stored unless its save
breaks off. -/
structure Inert (s : Session) (broken : Prop) (t : Turn) : Prop where
  state : t.session.registry.state = s.registry.state
  stored : ¬ broken → s.registry.store.Kept t.session.registry.store
  mode : t.session.mode = s.mode

/-- The line is a direct call to a registered node, and the call fails. -/
def FailsDirect [Url.Idna] (s : Session) (peer : Peer) (line : String) : Prop :=
  ∃ target call, s.Calls line target call ∧
    ∃ e, (Client.invoke s.registry call.tool call.payload (some target)
      (some (History.directContext (s.history ++ [⟨.user, Text.trimmed line⟩]))) peer).result =
        .error e

variable {s asked : Session} {peer : Peer} {line : String} {c : ToolCall} {broken : Prop}

/-! ## Turns without output -/

theorem Inert.of_same {t : Turn} (hregistry : t.session.registry = s.registry)
    (hmode : t.session.mode = s.mode) : s.Inert broken t := by
  refine ⟨by rw [hregistry], fun _ => ?_, hmode⟩
  rw [hregistry]
  exact Store.Kept.refl s.registry.store

theorem Inert.mono {t : Turn} {broken' : Prop} (h : s.Inert broken t) (himp : broken → broken') :
    s.Inert broken' t := ⟨h.state, fun hnot => h.stored fun hb => hnot (himp hb), h.mode⟩

/-- A change is reported if it is made, and one that fails changes nothing. -/
theorem inert_changeTurn {e : Registry.Edit} {mode : Mode} {done : String}
    (h : (s.changeTurn peer (s.registry.edit e) mode done).out = "") :
    s.Inert (s.registry.BreaksOff e) (s.changeTurn peer (s.registry.edit e) mode done) := by
  have hregistry : (s.changeTurn peer (s.registry.edit e) mode done).session.registry =
      (s.registry.edit e).registry := registry_changeTurn _ _ _
  have hmode : (s.changeTurn peer (s.registry.edit e) mode done).session.mode =
      if (s.registry.edit e).result.toBool = true then mode else s.mode := mode_changeTurn _ _ _
  cases hresult : (s.registry.edit e).result with
  | ok _ =>
      unfold changeTurn at h
      rw [hresult] at h
      exact absurd h (append_newline_ne done)
  | error cause =>
      obtain ⟨hstate, hkept⟩ := Registry.unchanged_of_error hresult
      rw [hresult] at hmode
      exact ⟨by rw [hregistry, hstate], by rw [hregistry]; exact hkept, hmode⟩

theorem mode_callTurn {α : Type} (call : Call α) (text : α → String) (answer : α → List Entry) :
    (s.callTurn call text answer).session.mode = s.mode := by
  unfold callTurn
  split
  · rfl
  · rfl

theorem inert_callTurn {α : Type} (call : Call α) (text : α → String) (answer : α → List Entry) :
    s.Inert broken (s.callTurn call text answer) :=
  Inert.of_same (registry_callTurn call text answer) (mode_callTurn call text answer)

theorem inert_commandTurn [Url.Idna] {command : Command} (h : (s.commandTurn peer command).out = "") :
    s.Inert (∃ e, command.edit? = some e ∧ s.registry.BreaksOff e) (s.commandTurn peer command) := by
  cases command with
  | list => exact absurd h (append_newline_ne _)
  | add name url token => exact (inert_changeTurn (e := .add name url token) h).mono fun h => ⟨_, rfl, h⟩
  | use name => exact (inert_changeTurn (e := .use name) h).mono fun h => ⟨_, rfl, h⟩
  | remove name =>
      unfold commandTurn at h ⊢
      simp only at h ⊢
      split
      · rename_i hoffline
        rw [if_pos hoffline] at h
        exact (inert_changeTurn (e := .remove name) h).mono fun h => ⟨_, rfl, h⟩
      · rename_i hother
        rw [if_neg hother] at h
        exact (inert_changeTurn (e := .remove name) h).mono fun h => ⟨_, rfl, h⟩
  | tools node => exact inert_callTurn _ _ _
  | invoke tool payload => exact inert_callTurn _ _ _

/-- A mode that is entered is reported. -/
theorem reported_or_kept_modeTurn (s : Session) (peer : Peer) (text : String) :
    (s.modeTurn peer text).out ≠ "" ∨ (s.modeTurn peer text).session.mode = s.mode := by
  unfold modeTurn
  split
  · exact Or.inr rfl
  · split
    · left
      show "Switched to online mode.\n" ≠ ""
      decide
    · unfold offlineTurn
      split
      · exact Or.inr rfl
      · split
        · left
          intro hout
          have hchars := congrArg String.toList hout
          rw [String.toList_append, String.toList_append] at hchars
          exact absurd (List.append_eq_nil_iff.mp hchars).2 (by decide)
        · exact Or.inr rfl
    · exact Or.inr rfl

theorem inert_modeTurn {text : String} (h : (s.modeTurn peer text).out = "") :
    s.Inert broken (s.modeTurn peer text) := by
  rcases reported_or_kept_modeTurn s peer text with hout | hmode
  · exact absurd h hout
  · exact Inert.of_same (registry_modeTurn text) hmode

theorem inert_directTurn [Url.Idna] (node text : String) :
    s.Inert broken (s.directTurn peer node text) := by
  apply Inert.of_same (registry_directTurn node text)
  unfold directTurn
  split
  · rfl
  · simp only
    split
    · exact mode_callTurn _ _ _
    · rfl

/-- **A line without output leaves the nodes, the store and the mode as they were**, the store unless the
save of the line breaks off. -/
theorem inert_of_unreported [Url.Idna] (h : (s.turn peer line).out = "") :
    s.Inert (s.BreaksOff line) (s.turn peer line) := by
  cases hcommand : Line.command? line with
  | some command =>
      rw [turn_of_command s peer hcommand] at h ⊢
      exact (inert_commandTurn h).mono fun ⟨e, he, hoff⟩ => ⟨command, e, hcommand, he, hoff⟩
  | none =>
      unfold turn at h ⊢
      cases hread : Line.read line with
      | blank => exact Inert.of_same rfl rfl
      | slash text =>
          cases hparse : Command.parse text with
          | ok command =>
              unfold Line.command? at hcommand
              rw [hread] at hcommand
              simp only at hcommand
              rw [hparse] at hcommand
              exact absurd hcommand (by simp [Except.toOption])
          | error e =>
              unfold turnOf slashTurn
              simp only
              rw [hparse]
              exact Inert.of_same rfl rfl
      | mode text =>
          rw [hread] at h
          exact inert_modeTurn h
      | quit => exact Inert.of_same rfl rfl
      | plain text =>
          unfold turnOf
          simp only
          split
          · exact Inert.of_same rfl rfl
          · exact inert_directTurn _ text

/-! ## The history of a line without output -/

/-- A call is reported exactly if it is answered. -/
theorem out_callTurn_eq_empty_iff {call : Call Json} {answer : Json → List Entry} :
    (asked.callTurn call Json.pretty answer).out = "" ↔ ∃ e, call.result = .error e := by
  unfold callTurn
  cases hresult : call.result with
  | ok result =>
      refine ⟨fun h => absurd h (append_newline_ne result.pretty), ?_⟩
      rintro ⟨e, he⟩
      exact absurd he (by simp)
  | error e => exact ⟨fun _ => ⟨e, rfl⟩, fun _ => rfl⟩

theorem unreported_iff_of_makes [Url.Idna] (h : s.Makes line c) :
    (s.turn peer line).out = "" ↔ ∃ e, (c.perform s.registry peer).result = .error e := by
  obtain ⟨asked, answer, -, -, -, -, hturn⟩ := turn_of_makes h peer
  rw [hturn]
  exact out_callTurn_eq_empty_iff

/-- A slash command is no direct call. -/
theorem not_calls_of_command {command : Command} {target : String} {call : DirectCall}
    (h : Line.command? line = some command) : ¬ s.Calls line target call := by
  intro hcalls
  obtain ⟨text, hread, -⟩ := hcalls.read
  obtain ⟨behind, hslash, -⟩ := Line.parse_of_command? h
  rw [hread] at hslash
  exact Line.noConfusion hslash

/-- A direct call that fails is silent. -/
theorem unreported_of_failsDirect [Url.Idna] (h : s.FailsDirect peer line) :
    (s.turn peer line).out = "" := by
  obtain ⟨target, call, hcalls, herror⟩ := h
  exact (unreported_iff_of_makes (.direct hcalls (History.window_recent _))).mpr herror

/-- **A line without output adds itself to the history if it is a direct call that fails, and nothing
otherwise.** -/
theorem history_of_unreported [Url.Idna] (h : (s.turn peer line).out = "") :
    (s.FailsDirect peer line ∧
      (s.turn peer line).session.history = s.history ++ [⟨.user, Text.trimmed line⟩]) ∨
    (¬ s.FailsDirect peer line ∧ (s.turn peer line).session.history = s.history) := by
  obtain ⟨added, hadds⟩ := exists_adds s peer line
  have hhistory := history_of_adds hadds
  cases hadds with
  | answered makes ok =>
      obtain ⟨e, he⟩ := (unreported_iff_of_makes makes).mp h
      rw [ok] at he
      exact absurd he (by simp)
  | @failed c e makes error =>
      cases makes with
      | slash command window =>
          refine Or.inr ⟨?_, hhistory.trans (List.append_nil _)⟩
          rintro ⟨target, call, hcalls, -⟩
          exact not_calls_of_command command hcalls
      | @direct target call w calls window =>
          refine Or.inl ⟨⟨target, call, calls, e, ?_⟩, hhistory⟩
          rw [window.eq_recent] at error
          exact error
  | nothing none =>
      refine Or.inr ⟨?_, hhistory.trans (List.append_nil _)⟩
      rintro ⟨target, call, hcalls, -⟩
      obtain ⟨c, hc⟩ := makes_of_calls hcalls
      exact none c hc

theorem history_isPrefix [Url.Idna] (s : Session) (peer : Peer) (line : String) :
    s.history <+: (s.turn peer line).session.history := by
  obtain ⟨added, hadds⟩ := exists_adds s peer line
  exact ⟨added, (history_of_adds hadds).symm⟩

/-! ## Runs -/

/-- **A line that reports no result has no effect**, after every run of every session, whatever the
replies are and whether saves fail. If it has no output, the nodes, the active name and the mode are as
they were, what is stored is too unless the save of the line breaks off, and so is the history, unless
the line is a direct call that was read, whose node is registered and which failed: then the history is
longer by the trimmed line, as an entry of the user. Such a call has no output in any case. And no line
takes anything from the history. -/
theorem unreported_after [Url.Idna] (r : Registry) (start : Peer) (moments : List Moment)
    (m : Moment) :
    let before := after { registry := r } start moments
    let s := before.1.disturbed m.disturbances
    let peer := before.2.scripted m.replies
    let t := s.turn peer m.line
    (t.out = "" →
      t.session.registry.state = s.registry.state ∧
      (¬ s.BreaksOff m.line → s.registry.store.Kept t.session.registry.store) ∧
      t.session.mode = s.mode ∧
      ((s.FailsDirect peer m.line ∧
          t.session.history = s.history ++ [⟨.user, Text.trimmed m.line⟩]) ∨
        (¬ s.FailsDirect peer m.line ∧ t.session.history = s.history))) ∧
    (s.FailsDirect peer m.line → t.out = "") ∧
    s.history <+: t.session.history := by
  intro before s peer t
  refine ⟨?_, unreported_of_failsDirect, history_isPrefix s peer m.line⟩
  intro hout
  have hinert := inert_of_unreported hout
  exact ⟨hinert.state, hinert.stored, hinert.mode, history_of_unreported hout⟩

/-- A call that is not answered has no output, and stays in the history as what the user has typed. -/
theorem unreported_after_unanswered :
    let _ : Url.Idna := .ascii
    let before := after { registry := (Registry.openStore (.file ⟨"nodes.json", namelessDisk⟩)).1 } {}
      [{ line := "/mode offline b" }]
    let t := before.1.turn before.2 "t \x7b\x7d"
    t.out = "" ∧ t.session.history = [⟨.user, "t \x7b\x7d"⟩] := by
  intro _ before t
  have hrun : t.out = "" ∧ before.1.history = [] ∧ Text.trimmed "t \x7b\x7d" = "t \x7b\x7d" ∧
      t.session.history.length = 1 := by
    decide +kernel
  obtain ⟨hout, hempty, htrimmed, hlength⟩ := hrun
  obtain ⟨hunreported, -, -⟩ := unreported_after
    (Registry.openStore (.file ⟨"nodes.json", namelessDisk⟩)).1 {} [{ line := "/mode offline b" }]
    { line := "t \x7b\x7d" }
  obtain ⟨-, -, -, ⟨-, hhistory⟩ | ⟨-, hhistory⟩⟩ := hunreported hout
  · change t.session.history = before.1.history ++ _ at hhistory
    rw [hhistory, hempty, htrimmed]
    exact ⟨hout, rfl⟩
  · change t.session.history = before.1.history at hhistory
    rw [hhistory, hempty] at hlength
    exact absurd hlength (by decide)

/-- What is stored is not always kept: on a disk that takes no more than ten bytes of a file, adding a node
has no output, and ten bytes of the new document are left in place of the old one. -/
theorem not_always_inert :
    ¬ ∀ [Url.Idna] (r : Registry) (start : Peer) (moments : List Moment) (m : Moment),
      let before := after { registry := r } start moments
      let s := before.1.disturbed m.disturbances
      let t := s.turn (before.2.scripted m.replies) m.line
      t.out = "" → s.registry.store.Kept t.session.registry.store := by
  intro hall
  let _ : Url.Idna := .ascii
  let full : Disk :=
    { entries := [(["nodes.json"], .file (Text.Utf8.encode "\x7b\x7d"))]
      room := some (10, .os 28 "No space left on device") }
  let before := after { registry := (Registry.openStore (.file ⟨"nodes.json", full⟩)).1 } {} []
  let s := before.1.disturbed []
  let t := s.turn (before.2.scripted none) "/mcp add a b"
  have hrun : t.out = "" ∧ t.session.registry.store.fileAt? ["nodes.json"] ≠
      s.registry.store.fileAt? ["nodes.json"] := by decide +kernel
  have hkept := hall (Registry.openStore (.file ⟨"nodes.json", full⟩)).1 {} [] { line := "/mcp add a b" }
    hrun.1
  exact hrun.2 (hkept.fileAt? ["nodes.json"])

end ToolNodes.Session
