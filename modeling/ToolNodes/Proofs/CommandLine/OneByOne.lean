import ToolNodes.Proofs.CommandLine.Single
import ToolNodes.Proofs.Registry.Reopening

/-!
# One session, or one run of the program for each call

A session opens its registry once and keeps it; a run of the program opens the registry, makes its call and
ends. The two come to the same for as long as the registry of the session is what the next run would open:
`Follows` says that it is so, on the disk that the runs have left. A line keeps it so and puts out what its
run does (`follows_turn`), and therefore the session as a whole comes to the same as all the runs
(`session_eq_runs`).
-/

namespace ToolNodes

open Text

namespace CommandLine

open Registry

/-! ## What is compared -/

/-- The runs of the program that make some calls, each on what the one before it has left. -/
def runEach [Url.Idna] (env : Environment) (stdin : List UInt8) (w : World) : List Edit → List Outcome
  | [] => []
  | e :: rest =>
    let o := run e.arguments env stdin w
    o :: runEach env stdin o.world rest

/-- What the last of some runs has left. -/
def lastWorld (w : World) (runs : List Outcome) : World := runs.foldl (fun _ o => o.world) w

/-- A line of a session does what a run of the program does: it leaves the same disk, puts out the same
text, and succeeds or reports the same error. -/
structure Agrees (path : String) (t : Turn) (o : Outcome) : Prop where
  disk : t.session.registry.store = .file ⟨path, o.world.disk⟩
  out : t.out = o.stdout
  err : some t.err = o.stderr
  ending : (o.code = 0 ∧ t.out ≠ "" ∧ t.err = "") ∨
    (o.code = 1 ∧ t.out = "" ∧ ∃ cause : Error, t.err = cause.rendered ++ "\n")

/-- The operands of a call can be typed and given to the program alike. -/
structure Plain (e : Edit) : Prop where
  solid : e.Solid
  undashed : e.Undashed

theorem plain_of_words {e : Edit} (hundashed : ∀ word ∈ e.operands, word.toList.head? ≠ some '-')
    (hwords : ∀ word ∈ e.operands,
      word.toList ≠ [] ∧ (word.toList.all fun c => !isBlank c) = true) : Plain e := by
  refine ⟨?_, hundashed⟩
  intro word hword
  obtain ⟨hne, hall⟩ := hwords word hword
  exact isWord_of_all hne hall

theorem Plain.solidUrl {e : Edit} (h : Plain e) : e.SolidUrl := by
  cases e with
  | add name url token =>
      exact (h.solid url (List.mem_cons_of_mem _ List.mem_cons_self)).solid
  | remove name => trivial
  | use name => trivial

/-! ## One line -/

/-- A session in online mode with the registry that a run of the program would open. -/
structure Follows (path : String) (s : Session) (w : World) : Prop where
  mode : s.mode = .online
  settled : s.registry.Settled
  store : s.registry.store = .file ⟨path, w.disk⟩

variable {env : Environment} {stdin : List UInt8} {w : World} {s : Session} {e : Edit} {path : String}

theorem Follows.opened (h : Follows path s w) :
    (openStore (.file ⟨path, w.disk⟩)).1 = s.registry := by
  rw [← h.store]
  exact h.settled.reopened_eq

/-- **A line does what a run does**, and the session goes on as one that follows. -/
theorem follows_turn [Url.Idna] (stdin : List UInt8) (hpath : (settings env {}).statePath = path)
    (h : Follows path s w) (he : Plain e) :
    let t := s.turn w.peer e.line
    let o := run e.arguments env stdin w
    Follows path t.session o.world ∧ Agrees path t o ∧ t.flow = .goOn ∧ t.trace = [] ∧
      t.peer = o.world.peer ∧ o.world.trace = w.trace := by
  intro t o
  obtain ⟨disk, hstore⟩ : ∃ disk, (s.registry.edit e).registry.store = .file ⟨path, disk⟩ :=
    store_step h.store (.edit e)
  have hsettled : (s.registry.edit e).registry.Settled := settled_edit h.store h.settled he.solidUrl
  have hturn : t = s.changeTurn w.peer (s.registry.edit e) .online e.report :=
    Edit.turn_line h.mode he.solid w.peer
  have hrun := run_arguments he.undashed env stdin w
  simp only [hpath, h.opened, hstore, diskOf] at hrun
  change o = _ at hrun
  unfold Session.changeTurn at hturn
  cases hresult : (s.registry.edit e).result with
  | ok _ =>
      rw [hresult] at hturn hrun
      simp only at hturn hrun
      rw [hturn, hrun]
      exact ⟨⟨rfl, hsettled, hstore⟩,
        ⟨hstore, rfl, rfl, Or.inl ⟨rfl, append_newline_ne e.report, rfl⟩⟩, rfl, rfl, rfl, rfl⟩
  | error cause =>
      rw [hresult] at hturn hrun
      simp only at hturn hrun
      rw [hturn, hrun]
      exact ⟨⟨h.mode, hsettled, hstore⟩,
        ⟨hstore, rfl, rfl, Or.inr ⟨rfl, rfl, cause, rfl⟩⟩, rfl, rfl, rfl, rfl⟩

/-! ## All lines -/

def turnsOf [Url.Idna] (s : Session) (peer : Peer) (edits : List Edit) : List Turn :=
  s.turns peer (edits.map fun e => { line := e.line })

/-- What a run of a session has to be for it to come to the same as some runs of the program. -/
structure Amounts (path : String) (w : World) (run : Session.Run) (turns : List Turn)
    (runs : List Outcome) : Prop where
  failure : run.failure = none
  trace : run.trace = []
  store : run.session.registry.store = .file ⟨path, (lastWorld w runs).disk⟩
  peer : run.peer = (lastWorld w runs).peer
  traced : (lastWorld w runs).trace = w.trace
  out : Session.Output.outText run.outputs = String.join (runs.map Outcome.stdout)
  err : Session.Output.errText run.outputs =
    String.join (turns.map fun t => "yxi> " ++ t.err) ++ "yxi> "
  agree : List.Forall₂ (Agrees path) turns runs

theorem prompt_of_follows (h : Follows path s w) : s.prompt = "yxi> " := by
  unfold Session.prompt
  rw [h.mode]

theorem runLines_encode [Url.Idna] (s : Session) (peer : Peer) {line : String}
    (rest : List (List UInt8)) (hflow : (s.turn peer line).flow = .goOn) :
    let t := s.turn peer line
    let more := t.session.runLines t.peer rest
    s.runLines peer (Utf8.encode line :: rest) =
      { more with
        outputs := .err s.prompt :: Session.outputsOf t ++ more.outputs
        trace := t.trace ++ more.trace } := by
  intro t more
  rw [Session.runLines, Utf8.decode?_encode]
  simp only
  rw [hflow]

open Session.Output in
theorem amounts_cons {t : Turn} {o : Outcome} {more : Session.Run} {turns : List Turn}
    {runs : List Outcome} {prompt : String} (hprompt : prompt = "yxi> ") (hagrees : Agrees path t o)
    (htraced : o.world.trace = w.trace) (h : Amounts path o.world more turns runs) :
    Amounts path w
      { more with
        outputs := .err prompt :: Session.outputsOf t ++ more.outputs
        trace := [] ++ more.trace }
      (t :: turns) (o :: runs) where
  failure := h.failure
  trace := h.trace
  store := h.store
  peer := h.peer
  traced := h.traced.trans htraced
  out := by
    show outText (Session.outputsOf t ++ more.outputs) = _
    rw [outText_append, outText_outputsOf, h.out, hagrees.out, List.map_cons, String.join_cons]
  err := by
    show errText (.err prompt :: (Session.outputsOf t ++ more.outputs)) = _
    rw [errText_err, errText_append, errText_outputsOf, h.err, hprompt, List.map_cons,
      String.join_cons]
    simp only [String.append_assoc]
  agree := List.Forall₂.cons hagrees h.agree

open Session.Output in
/-- **The lines of some calls come to the same as the runs.** -/
theorem amounts_runLines [Url.Idna] (hpath : (settings env {}).statePath = path) {edits : List Edit}
    (hedits : ∀ e ∈ edits, Plain e) (h : Follows path s w) :
    Amounts path w (s.runLines w.peer ((edits.map Edit.line).map Utf8.encode))
      (turnsOf s w.peer edits) (runEach env stdin w edits) := by
  induction edits generalizing s w with
  | nil =>
      refine ⟨rfl, rfl, h.store, rfl, rfl, rfl, ?_, List.Forall₂.nil⟩
      rw [List.map_nil, List.map_nil, Session.runLines, errText_err, prompt_of_follows h]
      rfl
  | cons e rest ih =>
      obtain ⟨hfollows, hagrees, hflow, htrace, hpeer, htraced⟩ :=
        follows_turn stdin hpath h (hedits e List.mem_cons_self)
      have hturns : turnsOf s w.peer (e :: rest) =
          s.turn w.peer e.line ::
            turnsOf (s.turn w.peer e.line).session (s.turn w.peer e.line).peer rest := rfl
      have hruns : runEach env stdin w (e :: rest) =
          run e.arguments env stdin w ::
            runEach env stdin (run e.arguments env stdin w).world rest := rfl
      rw [hturns, hruns, List.map_cons, List.map_cons, runLines_encode s w.peer _ hflow]
      generalize s.turn w.peer e.line = t at *
      generalize run e.arguments env stdin w = o at *
      have more := ih (fun e' he' => hedits e' (List.mem_cons_of_mem _ he')) hfollows
      rw [hpeer, htrace]
      exact amounts_cons (prompt_of_follows h) hagrees htraced more

/-! ## The session as a whole -/

theorem parse_shell : parse ["shell"] = .run {} .shell := by
  unfold parse
  rw [scan_enter (by decide) (by decide) (by rfl : Scope.enter? .program "shell" = some .shell), scan]
  rfl

/-- What a run of the program as a session leaves behind, when no line of it fails to be read. -/
theorem run_shell [Url.Idna] {input : List UInt8} {session : Session.Run}
    (hsession : Session.run
      { registry := (openStore (.file ⟨(settings env {}).statePath, w.disk⟩)).1 } w.peer input =
        session)
    (hfailure : session.failure = none) (htrace : session.trace = []) :
    run ["shell"] env input w =
      { code := 0
        stdout := Session.Output.outText session.outputs
        stderr := some (Session.Output.errText session.outputs)
        world := ⟨diskOf session.session.registry.store w.disk, w.trace, session.peer⟩ } := by
  have hrun : run ["shell"] env input w = runTask env {} .shell input w := by
    unfold run
    rw [parse_shell]
  have hperform :
      perform (openStore (.file ⟨(settings env {}).statePath, w.disk⟩)).1 w.peer input .shell =
        { registry := session.session.registry, peer := session.peer,
          stdout := Session.Output.outText session.outputs, outputs := session.outputs } := by
    unfold perform
    simp only [hsession, hfailure, htrace, Option.map_none, Option.toList_none, List.append_nil]
    rfl
  rw [hrun, runTask_plain, hperform]
  rfl

/-- **One session comes to the same as one run of the program for each call**, whatever state file there
is at the start, if any, as long as the path can be relied on and the file lists no URL with a blank in
it, and whatever the calls are, as long as their operands are words without a dash in front. After each
line the disk is the one that the run for the call has left, the same calls succeed, and an error has the
same text; what the session puts out is what the runs put out, one behind the other, with a prompt before
each line on the error output. -/
theorem session_eq_runs [Url.Idna] (env : Environment) (stdin : List UInt8) (w : World)
    (edits : List Edit) (hedits : ∀ e ∈ edits, Plain e)
    (hsteady : FileStore.Steady ⟨(settings env {}).statePath, w.disk⟩)
    (hurls : FileStore.SolidUrls ⟨(settings env {}).statePath, w.disk⟩) :
    let path := (settings env {}).statePath
    let session := run ["shell"] env (typed (edits.map Edit.line)) w
    let runs := runEach env stdin w edits
    let turns := turnsOf { registry := (openStore (.file ⟨path, w.disk⟩)).1 } w.peer edits
    session.code = 0 ∧ session.world = lastWorld w runs ∧
      session.stdout = String.join (runs.map Outcome.stdout) ∧
      session.stderr = some (String.join (turns.map fun t => "yxi> " ++ t.err) ++ "yxi> ") ∧
      List.Forall₂ (Agrees path) turns runs := by
  intro path session runs turns
  have hfollows : Follows path { registry := (openStore (.file ⟨path, w.disk⟩)).1 } w :=
    ⟨rfl, settled_openStore hsteady hurls, rfl⟩
  have hlines : Session.linesOf (typed (edits.map Edit.line)) =
      (edits.map Edit.line).map Utf8.encode := by
    apply linesOf_typed
    intro line hline
    obtain ⟨e, he, rfl⟩ := List.mem_map.mp hline
    exact Edit.unbroken_line (hedits e he).solid
  obtain ⟨out, hout⟩ : ∃ out, Session.run { registry := (openStore (.file ⟨path, w.disk⟩)).1 } w.peer
      (typed (edits.map Edit.line)) = out := ⟨_, rfl⟩
  have h : Amounts path w out turns runs := by
    rw [← hout]
    unfold Session.run
    rw [hlines]
    exact amounts_runLines rfl hedits hfollows
  have hworld : World.mk (diskOf out.session.registry.store w.disk) w.trace out.peer =
      lastWorld w runs := by
    rw [h.store, h.peer, ← h.traced]
    rfl
  have hsession : session = _ := run_shell hout h.failure h.trace
  rw [hsession]
  exact ⟨rfl, hworld, h.out, congrArg some h.err, h.agree⟩

/-- A session over a file with a node in it: a name and a token with letters that the document escapes,
and a removal that fails. -/
theorem session_eq_runs_escaped :
    let _ : Url.Idna := .ascii
    let env : Environment :=
      { get? := fun name => if name = "YXI_MCP_NODES" then some "nodes.json" else none }
    let content := "\x7b\"nodes\":\x7b\"b\":\x7b\"url\":\"http://b\"\x7d\x7d\x7d"
    let w : World := ⟨{ entries := [(["nodes.json"], .file (Utf8.encode content))] }, none, {}⟩
    let edits : List Edit := [.add "a\\" "http://a/" (some "\"t\""), .use "b", .remove "c"]
    let session := run ["shell"] env (typed (edits.map Edit.line)) w
    let runs := runEach env [] w edits
    session.world = lastWorld w runs ∧ session.stdout = String.join (runs.map Outcome.stdout) := by
  intro _ env content w edits session runs
  have hundashed : ∀ e ∈ edits, ∀ word ∈ e.operands, word.toList.head? ≠ some '-' := by decide
  have hwords : ∀ e ∈ edits, ∀ word ∈ e.operands,
      word.toList ≠ [] ∧ (word.toList.all fun c => !isBlank c) = true := by decide
  have hplain : ∀ e ∈ edits, Plain e := fun e he => plain_of_words (hundashed e he) (hwords e he)
  have hurls : FileStore.SolidUrls ⟨(settings env {}).statePath, w.disk⟩ := by decide +kernel
  have hsteady : FileStore.Steady ⟨(settings env {}).statePath, w.disk⟩ :=
    FileStore.steady_of_entries rfl (by decide)
  obtain ⟨-, hworld, hstdout, -⟩ := session_eq_runs env [] w edits hplain hsteady hurls
  exact ⟨hworld, hstdout⟩

/-- A session over a device does not come to the same as the runs: it keeps the node that it has added,
and no run finds one. -/
theorem not_always_eq_runs :
    ¬ ∀ [Url.Idna] (env : Environment) (stdin : List UInt8) (w : World) (edits : List Edit),
      (∀ e ∈ edits, Plain e) → FileStore.SolidUrls ⟨(settings env {}).statePath, w.disk⟩ →
        (run ["shell"] env (typed (edits.map Edit.line)) w).stdout =
          String.join ((runEach env stdin w edits).map Outcome.stdout) := by
  intro hall
  let _ : Url.Idna := .ascii
  let env : Environment :=
    { get? := fun name => if name = "YXI_MCP_NODES" then some "/dev/null" else none }
  let w : World := ⟨.null, none, {}⟩
  let edits : List Edit := [.add "a" "http://a" none, .use "a"]
  have hundashed : ∀ e ∈ edits, ∀ word ∈ e.operands, word.toList.head? ≠ some '-' := by decide
  have hwords : ∀ e ∈ edits, ∀ word ∈ e.operands,
      word.toList ≠ [] ∧ (word.toList.all fun c => !isBlank c) = true := by decide
  have hsame := hall env [] w edits (fun e he => plain_of_words (hundashed e he) (hwords e he))
    (by decide +kernel)
  exact absurd hsame (by decide +kernel)

end CommandLine

end ToolNodes
