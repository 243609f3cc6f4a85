import ToolNodes.Proofs.Client.Discipline
import ToolNodes.Proofs.Command.Slash
import ToolNodes.Proofs.Registry.Listing
import ToolNodes.Proofs.Registry.Reopening
import ToolNodes.Proofs.Render
import ToolNodes.Proofs.Session.Run

/-!
# What a session lists

The names and URLs that a session is told are words of its lines. So a session that starts with nothing
holds only nodes whose lines can be told apart, and with what holds of every registry, that its names are
distinct and that a node is active as long as there are any, its listings are what they are to be
(`lists_after`). A file can hold other names, so this is not so of every session over a file.
-/

namespace ToolNodes

open Text

/-! ## States that can be listed -/

/-- A sound state with a node active if there is one, whose names and URLs are words. -/
structure State.Listable (s : State) : Prop where
  sound : s.Sound
  selecting : s.Selecting
  worded : ∀ name node, s.nodes.get? name = some node → Render.Worded node

namespace Registry

variable {s : State} {r : Registry}

theorem listable_empty : State.empty.Listable where
  sound := State.sound_empty
  selecting := ⟨fun h => absurd h (by decide), fun h => absurd h (by decide)⟩
  worded := by
    intro name node h
    exact absurd h (by simp [State.empty, Table.get?, Entries.get?])

/-- The normal form of a word is a word, unless it is empty. -/
theorem isWord_normalUrl {url : String} (h : IsWord url.toList)
    (hne : (normalUrl url).isEmpty = false) : IsWord (normalUrl url).toList where
  ne := by
    intro hnil
    rw [String.isEmpty_eq_false_iff] at hne
    exact hne (String.toList_eq_nil_iff.mp hnil)
  solid := by
    intro c hc
    have hname := h.isName
    have hfront := normalUrl_prefix_trim url
    rw [trim_eq_self hname.start hname.stop] at hfront
    exact h.solid c (hfront.subset hc)

/-- A call keeps a state listable when the name and URL that it may add are words. -/
theorem listable_next (h : s.Listable) {e : Edit} (he : e.Acceptable s)
    (hadd : ∀ name url token, e = .add name url token → IsWord name.toList ∧ IsWord url.toList) :
    (e.next s).Listable where
  sound := sound_next h.sound he
  selecting := selecting_next h.sound h.selecting he
  worded := by
    intro key node hget
    cases e with
    | add name url token =>
        simp only [Edit.next, afterAdd, Table.get?_insert] at hget
        split at hget
        · cases hget
          obtain ⟨hname, hurl⟩ := hadd name url token rfl
          exact ⟨hname, isWord_normalUrl hurl he.2⟩
        · exact h.worded key node hget
    | remove name =>
        simp only [Edit.next, afterRemove, Table.get?_erase] at hget
        split at hget
        · exact absurd hget (by simp)
        · exact h.worded key node hget
    | use name => exact h.worded key node hget

/-- In a listable state that holds a node, the active node is one of the nodes, and the active name is the
name of no other. -/
theorem active_of_listable (h : r.state.Listable) (hsome : r.isEmpty = false) :
    ∃ active, r.activeNode? = some active ∧ active ∈ r.list ∧
      ∀ node ∈ r.list, some node.name = r.activeName ↔ node = active := by
  obtain ⟨name, hname⟩ := Option.isSome_iff_exists.mp (h.selecting.mpr hsome)
  obtain ⟨active, hactive⟩ := Table.contains_iff.mp (h.sound.active name hname)
  refine ⟨active, ?_, mem_list_iff.mpr ⟨name, hactive⟩, ?_⟩
  · unfold activeNode? activeName
    rw [hname]
    exact hactive
  · intro node hnode
    unfold activeName
    rw [hname, Option.some_inj]
    constructor
    · rintro rfl
      have hget := get?_of_mem_list h.sound hnode
      exact Option.some.inj (hget.symm.trans hactive)
    · rintro rfl
      exact (h.sound.nodes name node hactive).name_eq

end Registry

/-! ## Runs -/

namespace Session

variable {s : Session} {peer : Peer} {line : String}

/-- A line that makes a call to add a node has its name and its URL as words. -/
theorem isWord_of_adds {name url : String} {token : Option String}
    (h : (Line.command? line).bind Command.edit? = some (.add name url token)) :
    IsWord name.toList ∧ IsWord url.toList := by
  obtain ⟨command, hcommand, hedit⟩ := Option.bind_eq_some_iff.mp h
  obtain ⟨text, -, hparse⟩ := Line.parse_of_command? hcommand
  have hsolid := Command.solid_of_parse hparse
  cases command with
  | add name' url' token' =>
      cases hedit
      exact ⟨hsolid.1, hsolid.2.1⟩
  | _ => cases hedit

/-- **A line keeps the state of a session listable.** -/
theorem listable_turnAt [Url.Idna] (h : s.registry.state.Listable) (peer : Peer) (m : Moment) :
    (s.turnAt peer m).session.registry.state.Listable := by
  unfold turnAt
  rw [registry_turn]
  cases hedit : (Line.command? m.line).bind Command.edit? with
  | none => exact h
  | some e =>
      rcases Registry.state_edit (s.disturbed m.disturbances).registry e with hsame | ⟨he, hnext⟩
      · simp only [Option.elim_some, hsame]
        exact h
      · simp only [Option.elim_some, hnext]
        refine Registry.listable_next h he ?_
        rintro name url token rfl
        exact isWord_of_adds hedit

end Session

/-! ## Listings -/

/-- What a listing of a registry says: a line for each node, in their order, that shows it, and a star on
one line, that of the active node, which a call of a tool for no node goes to. -/
structure Lists [Url.Idna] (r : Registry) (active : Node) (out : String)
    (lines : List (List Char)) : Prop where
  cut : splitOn (· = '\n') out.toList = lines ++ [[]]
  shown : List.Forall₂ (Render.Shows active) r.list lines
  once : ∀ name node, r.get? name = some node → r.list.count node = 1
  registered : ∀ node ∈ r.list, r.get? node.name = some node
  starred : lines.countP (fun line => line.head? = some '*') = 1
  active_eq : r.activeNode? = some active
  target : ∀ tool payload context peer,
    Client.invoke r tool payload none context peer =
      Client.invokeAt active tool ⟨payload, context⟩ peer

/-- A listable registry that holds a node is listed. -/
theorem Registry.lists_nodes [Url.Idna] {r : Registry} (h : r.state.Listable)
    (hsome : r.isEmpty = false) :
    ∃ active lines, Lists r active (Render.nodes r.list r.activeName ++ "\n") lines := by
  obtain ⟨active, hactive, hmem, hname⟩ := active_of_listable h hsome
  have hworded : ∀ node ∈ r.list, Render.Worded node := fun node hnode =>
    h.worded node.name node (get?_of_mem_list h.sound hnode)
  have honce : ∀ name node, r.get? name = some node → r.list.count node = 1 :=
    fun name node => count_list h.sound
  have hshown : List.Forall₂ (Render.Shows active) r.list
      (r.list.map fun node => (Render.nodeLine r.activeName node).toList) := by
    rw [List.forall₂_map_right_iff, List.forall₂_same]
    exact fun node hnode => Render.shows_nodeLine (hworded node hnode) (hname node hnode)
  refine ⟨active, _, Render.splitOn_listing (List.ne_nil_of_mem hmem) hworded, hshown, honce,
    fun node => get?_of_mem_list h.sound, ?_, hactive, ?_⟩
  · rw [Render.countP_star hshown]
    exact honce active.name active (get?_of_mem_list h.sound hmem)
  · exact Client.invoke_of_targets (.active rfl hactive)

namespace Session

/-- **A session without a file lists its nodes faithfully.** A session starts over a disk that has nothing
to read at its path. Whatever lines it reads, and whatever becomes of the disk and so of its saves, as
long as it holds a node a line that asks for the listing gets it: the output is one line for each node, in
the order of the listing, each with the words for its node, and a star on one line only, that of the
active node. -/
theorem lists_after [Url.Idna] {path : String} {disk : Disk}
    (habsent : ∀ content, disk.read path ≠ .ok content) (start : Peer)
    (moments : List Moment) :
    let opened := (Registry.openStore (.file ⟨path, disk⟩)).1
    let s := (Session.after { registry := opened } start moments).1
    s.registry.isEmpty = false → ∀ (peer : Peer) (m : Moment), Line.command? m.line = some .list →
      (s.turnAt peer m).err = "" ∧
        ∃ active lines, Lists s.registry active (s.turnAt peer m).out lines := by
  intro opened s hsome peer m hlist
  have hopened : opened.state.Listable := by
    have hempty : opened.state = .empty := FileStore.loadOrEmpty_of_unread (s := ⟨path, disk⟩) habsent
    rw [hempty]
    exact Registry.listable_empty
  have hlistable : s.registry.state.Listable :=
    holds_after (P := fun s => s.registry.state.Listable)
      (fun s peer m h => listable_turnAt h peer m) hopened moments
  have hturn : s.turnAt peer m =
      (s.disturbed m.disturbances).commandTurn (peer.scripted m.replies) .list :=
    turn_of_command _ _ hlist
  rw [hturn]
  exact ⟨rfl, Registry.lists_nodes hlistable hsome⟩

/-- Two nodes are listed, one of them with a token. A third is told but not added, for a directory has
come to stand where the file was. -/
theorem lists_after_unsaved :
    let _ : Url.Idna := .ascii
    let moments : List Moment :=
      [{ line := "/mcp add a http://a/" },
       { line := "/mcp add b http://b secret" },
       { disturbances := [.disk { entries := [(["nodes.json"], .directory)] }],
         line := "/mcp add c http://c" }]
    let s := (Session.after { registry := (Registry.openStore (.file ⟨"nodes.json", {}⟩)).1 } {}
      moments).1
    let t := s.turnAt {} { line := "/mcp list" }
    s.registry.size = 2 ∧ t.err = "" ∧ ∃ active lines, Lists s.registry active t.out lines := by
  intro _ moments s t
  have habsent : ∀ content, ({} : Disk).read "nodes.json" ≠ .ok content := by
    have herror : (({} : Disk).read "nodes.json").toBool = false := by decide +kernel
    intro content h
    rw [h] at herror
    exact absurd herror (by simp [Except.toBool])
  have hlist : Line.command? "/mcp list" = some .list := by
    have hread : Line.read "/mcp list" = .slash "list" := by decide +kernel
    unfold Line.command?
    rw [hread]
    rfl
  have hrun : s.registry.isEmpty = false ∧ s.registry.size = 2 := by decide +kernel
  have h := lists_after habsent {} moments hrun.1
  exact ⟨hrun.2, h {} _ hlist⟩

end Session

end ToolNodes
