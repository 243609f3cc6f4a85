import ToolNodes.CommandLine
import ToolNodes.Proofs.Session.Typed

/-!
# Runs of the program that make one call

The words of a call behind `nodes` ask the program for it, when none of its operands looks like an
option. Such a run opens the registry, makes the call, and leaves what the call leaves: the disk, the
report or the text of the error, and a code that says which (`run_arguments`).
-/

namespace ToolNodes

/-! ## Arguments -/

namespace CommandLine

theorem form_of_undashed {a : String} (h : a.toList.head? ≠ some '-') :
    Form.ofArgument a = .word := by
  unfold Form.ofArgument
  split
  · rename_i ha
    rw [ha] at h
    exact absurd rfl h
  · rename_i ha
    rw [ha] at h
    exact absurd rfl h
  · rename_i ha
    rw [ha] at h
    exact absurd rfl h
  · rfl

/-- A word that opens a level leads there. -/
theorem scan_enter {s : Scan} {a : String} {scope : Scope} (h : a.toList.head? ≠ some '-')
    (hhelp : a ≠ "help") (henter : s.scope.enter? a = some scope) (rest : List String) :
    scan s (a :: rest) = scan { s with scope, seen := [] } rest := by
  have hword : s.word? a = some { s with scope, seen := [] } := by
    unfold Scan.word?
    rw [henter]
  rw [scan, form_of_undashed h]
  simp only [decide_eq_false hhelp, Bool.and_false, Bool.false_eq_true, if_false, hword]

/-- On a level without levels below it, words are taken one after the other, as many as it has places
for. -/
theorem scan_words {ws : List String} (h : ∀ w ∈ ws, w.toList.head? ≠ some '-') {s : Scan}
    (hinner : s.scope.isOuter = false) (hleaf : ∀ w, s.scope.enter? w = none)
    (hplaces : s.words.length + ws.length ≤ s.scope.places) :
    scan s ws = { s with words := s.words ++ ws }.finish := by
  induction ws generalizing s with
  | nil =>
      rw [scan, List.append_nil]
  | cons w ws ih =>
      rw [List.length_cons] at hplaces
      have hword : s.word? w = some { s with words := s.words ++ [w] } := by
        unfold Scan.word?
        rw [hleaf w]
        simp only
        rw [if_pos (by omega)]
      rw [scan, form_of_undashed (h w List.mem_cons_self)]
      simp only [hinner, Bool.false_and, Bool.false_eq_true, if_false, hword]
      rw [ih (s := { s with words := s.words ++ [w] })
        (fun v hv => h v (List.mem_cons_of_mem _ hv)) hinner hleaf
        (by simp only [List.length_append, List.length_singleton]; omega)]
      simp only [List.append_assoc, List.singleton_append]

end CommandLine

namespace Registry.Edit

open CommandLine

def arguments (e : Edit) : List String := "nodes" :: e.words

def task : Edit → Task
  | add name url token => .addNode name url token
  | remove name => .removeNode name
  | use name => .useNode name

def scope : Edit → Scope
  | add _ _ _ => .add
  | remove _ => .remove
  | use _ => .use

/-- No operand of a call starts with a dash. -/
def Undashed (e : Edit) : Prop := ∀ w ∈ e.operands, w.toList.head? ≠ some '-'

theorem undashed_verb (e : Edit) : e.verb.toList.head? ≠ some '-' := by
  cases e <;> simp [verb]

theorem enter?_verb (e : Edit) : Scope.enter? .nodes e.verb = some e.scope := by
  cases e <;> rfl

theorem length_operands (e : Edit) : e.operands.length ≤ e.scope.places := by
  cases e with
  | add name url token => cases token <;> simp [operands, scope, Scope.places]
  | remove name => exact Nat.le_refl 1
  | use name => exact Nat.le_refl 1

/-- **The arguments ask for the call.** -/
theorem parse_arguments {e : Edit} (h : e.Undashed) : parse e.arguments = .run {} e.task := by
  have hscan : parse e.arguments = { scope := e.scope, words := e.operands : Scan }.finish := by
    have hhelp : e.verb ≠ "help" := by cases e <;> simp [verb]
    unfold parse arguments words
    rw [scan_enter (by decide) (by decide) (by rfl : Scope.enter? .program "nodes" = some .nodes),
      scan_enter (undashed_verb e) hhelp (enter?_verb e), scan_words h]
    · rfl
    · cases e <;> rfl
    · cases e <;> exact fun _ => rfl
    · rw [List.length_nil, Nat.zero_add]
      exact length_operands e
  rw [hscan]
  cases e with
  | add name url token => cases token <;> rfl
  | remove name => rfl
  | use name => rfl

theorem perform_task [Url.Idna] (e : Edit) (r : Registry) (peer : Peer) (stdin : List UInt8) :
    perform r peer stdin e.task = change peer (r.edit e) e.report := by
  cases e <;> rfl

end Registry.Edit

/-! ## What is put out -/

namespace Session.Output

theorem errText_append (a b : List Output) : errText (a ++ b) = errText a ++ errText b := by
  unfold errText
  rw [List.filterMap_append, String.join_append]

theorem outText_append (a b : List Output) : outText (a ++ b) = outText a ++ outText b := by
  unfold outText
  rw [List.filterMap_append, String.join_append]

theorem errText_logs (messages : List Message) : errText (messages.map .log) = "" := by
  induction messages with
  | nil => rfl
  | cons message messages ih => exact ih

theorem outText_logs (messages : List Message) : outText (messages.map .log) = "" := by
  induction messages with
  | nil => rfl
  | cons message messages ih => exact ih

theorem errText_err (text : String) (outputs : List Output) :
    errText (.err text :: outputs) = text ++ errText outputs :=
  String.join_cons

theorem outText_out (text : String) (outputs : List Output) :
    outText (.out text :: outputs) = text ++ outText outputs :=
  String.join_cons

/-- A turn puts out what it writes, with its messages aside. -/
theorem errText_outputsOf (t : Turn) : errText (outputsOf t) = t.err := by
  unfold outputsOf
  rw [errText_append, errText_logs, String.empty_append]
  exact (errText_err t.err []).trans String.append_empty

theorem outText_outputsOf (t : Turn) : outText (outputsOf t) = t.out := by
  unfold outputsOf
  rw [outText_append, outText_logs, String.empty_append]
  exact (outText_out t.out [.err t.err]).trans String.append_empty

end Session.Output

namespace CommandLine

open Session.Output

/-- Messages are not shown unless that is asked for. -/
theorem errorText_quiet (outputs : List Session.Output) :
    errorText false outputs = errText outputs := by
  induction outputs with
  | nil => rfl
  | cons output outputs ih =>
      unfold errorText errText at ih ⊢
      cases output with
      | out text => simpa [String.join_cons] using ih
      | err text => simpa [String.join_cons] using ih
      | log message => simpa [String.join_cons] using ih

/-! ## Runs -/

open Registry

variable {e : Edit}

/-- What a run of the program with no options leaves of a task. -/
theorem runTask_plain [Url.Idna] (env : Environment) (task : Task) (stdin : List UInt8) (w : World) :
    let registry := (openStore (.file ⟨(settings env {}).statePath, w.disk⟩)).1
    let done := perform registry w.peer stdin task
    runTask env {} task stdin w =
      { code := if done.ok then 0 else 1
        stdout := done.stdout
        stderr := some (errText done.outputs)
        world :=
          { disk := diskOf done.registry.store w.disk
            trace := w.trace.append (Trace.Settings.ofEnvironment env) done.trace
            peer := done.peer } } := by
  intro registry done
  have hquiet : ∀ messages outputs,
      errorText false (List.map Session.Output.log messages ++ outputs) = errText outputs := by
    intro messages outputs
    rw [errorText_quiet, errText_append, errText_logs, String.empty_append]
  unfold runTask
  simp only [Bool.false_and, Bool.false_eq_true, if_false, List.nil_append, hquiet]
  rfl

/-- **What a run of the program for a call leaves behind** is what the call leaves. -/
theorem run_arguments [Url.Idna] (h : e.Undashed) (env : Environment) (stdin : List UInt8)
    (w : World) :
    let c := (openStore (.file ⟨(settings env {}).statePath, w.disk⟩)).1.edit e
    run e.arguments env stdin w =
      match c.result with
      | .ok () => ⟨0, e.report ++ "\n", some "", { w with disk := diskOf c.registry.store w.disk }⟩
      | .error cause =>
        ⟨1, "", some (cause.rendered ++ "\n"), { w with disk := diskOf c.registry.store w.disk }⟩ := by
  intro c
  have hrun : run e.arguments env stdin w = runTask env {} e.task stdin w := by
    unfold run
    rw [Edit.parse_arguments h]
  have hperform (peer : Peer) (stdin : List UInt8) :
      perform (openStore (.file ⟨(settings env {}).statePath, w.disk⟩)).1 peer stdin e.task =
        change peer c e.report := Edit.perform_task e _ peer stdin
  rw [hrun, runTask_plain, hperform]
  unfold change
  cases c.result with
  | ok _ =>
      simp only [errText_logs]
      rfl
  | error cause =>
      simp only [errText_append, errText_logs, String.empty_append]
      rfl

end CommandLine

end ToolNodes
