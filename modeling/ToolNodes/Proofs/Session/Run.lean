import ToolNodes.Session
import ToolNodes.Proofs.Registry.Run

/-!
# Runs of a session

A session reads line after line, and between the lines the surroundings of its store may change and its
peer may get other replies (`Moment`). A line makes one call on the registry at most, which
`Command.edit?` tells of a command, so a run of a session is also a run of its registry
(`registry_after`).
-/

namespace ToolNodes

/-! ## Lines and moments -/

/-- The call on the registry that a command makes, if it makes one. -/
def Command.edit? : Command → Option Registry.Edit
  | add name url token => some (.add name url token)
  | use name => some (.use name)
  | remove name => some (.remove name)
  | _ => none

/-- The command that a line is read as, if it is read as one. -/
def Line.command? (line : String) : Option Command :=
  match Line.read line with
  | .slash text => (Command.parse text).toOption
  | _ => none

/-- A line, with what becomes of the surroundings of the store before it is read, and the replies that
the peer has from then on if they are set anew. -/
structure Moment where
  disturbances : List Store.Disturbance := []
  replies : Option (List (Option Reply)) := none
  line : String

/-- The peer when its replies are set anew. -/
def Peer.scripted (p : Peer) (replies : Option (List (Option Reply))) : Peer :=
  { p with replies := replies.getD p.replies }

/-- What ends in a line break is not empty: a turn that reports something is not silent. -/
theorem append_newline_ne (text : String) : text ++ "\n" ≠ "" := by
  intro h
  rw [← String.toList_inj, String.toList_append] at h
  exact absurd h (by simp)

/-- A line that is read as a command has it behind `/mcp`. -/
theorem Line.parse_of_command? {line : String} {c : Command} (h : Line.command? line = some c) :
    ∃ text, Line.read line = .slash text ∧ Command.parse text = .ok c := by
  unfold Line.command? at h
  split at h
  · rename_i text hread
    cases hparse : Command.parse text with
    | ok command =>
        rw [hparse] at h
        obtain rfl := Option.some.inj h
        exact ⟨text, hread, hparse⟩
    | error e =>
        rw [hparse] at h
        exact absurd h (by simp [Except.toOption])
  · exact absurd h (by simp)

namespace Session

def disturbed (s : Session) (disturbances : List Store.Disturbance) : Session :=
  { s with registry := ⟨disturbances.foldl Store.disturbed s.registry.store, s.registry.state⟩ }

def turnAt [Url.Idna] (s : Session) (peer : Peer) (m : Moment) : Turn :=
  (s.disturbed m.disturbances).turn (peer.scripted m.replies) m.line

def turns [Url.Idna] (s : Session) (peer : Peer) : List Moment → List Turn
  | [] => []
  | m :: rest => s.turnAt peer m :: (s.turnAt peer m).session.turns (s.turnAt peer m).peer rest

/-- The session after some moments, with its peer. -/
def after [Url.Idna] (s : Session) (peer : Peer) : List Moment → Session × Peer
  | [] => (s, peer)
  | m :: rest => (s.turnAt peer m).session.after (s.turnAt peer m).peer rest

/-! ## Lines that are commands -/

/-- The turn of a line that is read as a command. -/
theorem turn_eq_commandTurn [Url.Idna] (s : Session) (peer : Peer) {line text : String} {c : Command}
    (hread : Line.read line = .slash text) (hparse : Command.parse text = .ok c) :
    s.turn peer line = s.commandTurn peer c := by
  unfold turn turnOf slashTurn
  rw [hread]
  simp only
  rw [hparse]

theorem turn_of_command [Url.Idna] (s : Session) (peer : Peer) {line : String} {c : Command}
    (h : Line.command? line = some c) : s.turn peer line = s.commandTurn peer c := by
  obtain ⟨text, hread, hparse⟩ := Line.parse_of_command? h
  exact turn_eq_commandTurn s peer hread hparse

/-! ## What turns do to the registry -/

variable {s : Session} {peer : Peer}

theorem registry_changeTurn (c : Registry.Change) (mode : Mode) (done : String) :
    (s.changeTurn peer c mode done).session.registry = c.registry := by
  unfold changeTurn
  split
  · rfl
  · rfl

theorem registry_callTurn {α : Type} (c : Call α) (text : α → String) (answer : α → List Entry) :
    (s.callTurn c text answer).session.registry = s.registry := by
  unfold callTurn
  split
  · rfl
  · rfl

theorem registry_commandTurn [Url.Idna] (c : Command) :
    (s.commandTurn peer c).session.registry =
      c.edit?.elim s.registry fun e => (s.registry.edit e).registry := by
  cases c with
  | list => rfl
  | add name url token => exact registry_changeTurn _ _ _
  | use name => exact registry_changeTurn _ _ _
  | remove name =>
      unfold commandTurn
      simp only
      split
      · exact registry_changeTurn _ _ _
      · exact registry_changeTurn _ _ _
  | tools node => exact registry_callTurn _ _ _
  | invoke tool payload => exact registry_callTurn _ _ _

theorem registry_modeTurn (text : String) : (s.modeTurn peer text).session.registry = s.registry := by
  unfold modeTurn
  split
  · rfl
  · split
    · rfl
    · unfold offlineTurn
      split
      · rfl
      · split
        · rfl
        · rfl
    · rfl

theorem registry_directTurn [Url.Idna] (node line : String) :
    (s.directTurn peer node line).session.registry = s.registry := by
  unfold directTurn
  split
  · rfl
  · simp only
    split
    · exact registry_callTurn _ _ _
    · rfl

/-- **A line makes one call on the registry at most**: that of the command that it is read as. -/
theorem registry_turn [Url.Idna] (s : Session) (peer : Peer) (line : String) :
    (s.turn peer line).session.registry =
      ((Line.command? line).bind Command.edit?).elim s.registry
        fun e => (s.registry.edit e).registry := by
  cases hread : Line.read line with
  | slash text =>
      cases hparse : Command.parse text with
      | ok c =>
          have hcommand : Line.command? line = some c := by
            unfold Line.command?
            rw [hread]
            simp only
            rw [hparse]
            rfl
          rw [turn_of_command s peer hcommand, hcommand]
          exact registry_commandTurn c
      | error e =>
          unfold Line.command? turn turnOf slashTurn
          rw [hread]
          simp only
          rw [hparse]
          rfl
  | blank =>
      unfold Line.command? turn
      rw [hread]
      rfl
  | mode text =>
      unfold Line.command? turn
      rw [hread]
      exact registry_modeTurn text
  | quit =>
      unfold Line.command? turn
      rw [hread]
      rfl
  | plain text =>
      unfold Line.command? turn turnOf
      rw [hread]
      simp only
      cases s.mode with
      | online => rfl
      | offline node => exact registry_directTurn node text

/-! ## What runs do to the registry -/

theorem registry_disturbed (s : Session) (disturbances : List Store.Disturbance) :
    (s.disturbed disturbances).registry = s.registry.after (disturbances.map .disturb) := by
  obtain ⟨⟨store, state⟩, mode, history⟩ := s
  induction disturbances generalizing store with
  | nil => rfl
  | cons d rest ih => exact ih (store.disturbed d)

theorem registry_turnAt [Url.Idna] (s : Session) (peer : Peer) (m : Moment) :
    ∃ events, (s.turnAt peer m).session.registry = s.registry.after events := by
  unfold turnAt
  rw [registry_turn, registry_disturbed]
  cases (Line.command? m.line).bind Command.edit? with
  | none => exact ⟨m.disturbances.map .disturb, rfl⟩
  | some e =>
      refine ⟨m.disturbances.map .disturb ++ [.edit e], ?_⟩
      unfold Registry.after
      rw [List.foldl_append]
      rfl

/-- **A run of a session is a run of its registry.** -/
theorem registry_after [Url.Idna] (s : Session) (peer : Peer) (moments : List Moment) :
    ∃ events, (s.after peer moments).1.registry = s.registry.after events := by
  induction moments generalizing s peer with
  | nil => exact ⟨[], rfl⟩
  | cons m rest ih =>
      obtain ⟨first, hfirst⟩ := registry_turnAt s peer m
      obtain ⟨later, hlater⟩ := ih (s.turnAt peer m).session (s.turnAt peer m).peer
      refine ⟨first ++ later, ?_⟩
      rw [after, hlater, hfirst]
      exact (List.foldl_append ..).symm

/-- What every turn of a session keeps holds after every run. -/
theorem holds_after [Url.Idna] {P : Session → Prop}
    (hturn : ∀ s peer m, P s → P (s.turnAt peer m).session)
    (h : P s) (moments : List Moment) : P (s.after peer moments).1 := by
  induction moments generalizing s peer with
  | nil => exact h
  | cons m rest ih => exact ih (hturn s peer m h)

end Session

end ToolNodes
