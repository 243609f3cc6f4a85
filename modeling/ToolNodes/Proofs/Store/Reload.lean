import ToolNodes.Proofs.Store

/-!
# What a saved state is loaded as

Any state can be saved, also one that breaks the rules that a registry keeps: its active name may
dangle, its keys may differ from the names of their nodes, its URLs may be in no normal form and its
tokens blank. `State.CanonicalForm` says entry by entry what is left of it, and loading what was saved
to a file that may be read gives the state for which that holds (`load_after_save`). Where no write
breaks off, whether a save succeeds is a matter of the path and the disk alone (`save_result_eq`).
-/

namespace ToolNodes

open Text

/-! ## What is left of a state -/

namespace State

/-- What is kept of a node under a key: the key as its name, what is kept of its URL if that is
something, and its token unless it is blank. -/
structure NodeKept (key : String) (given kept : Node) : Prop where
  name_eq : kept.name = key
  url_kept : KeptUrl given.url.toList kept.url.toList
  url_ne : kept.url ≠ ""
  token_iff : ∀ t, kept.token = some t ↔ given.token = some t ∧ isBlankText t = false

/-- A state is left of another: under each key what is kept of the node there, and the active name if
one of these nodes is under it. -/
structure CanonicalForm (s t : State) : Prop where
  node_iff : ∀ key kept, t.nodes.get? key = some kept ↔
    ∃ given, s.nodes.get? key = some given ∧ NodeKept key given kept
  active_iff : ∀ name, t.active = some name ↔ s.active = some name ∧ t.nodes.contains name = true

variable {s t : State} {key : String} {given kept : Node}

theorem usable?_eq_some_iff :
    usable? key given.url given.token = some kept ↔ NodeKept key given kept := by
  have htoken : ∀ t, normalToken given.token = some t ↔
      given.token = some t ∧ isBlankText t = false := by
    intro t
    rw [normalToken, Option.filter_eq_some_iff]
    simp
  constructor
  · intro h
    obtain ⟨hurl, rfl⟩ := usable?_eq_some h
    refine ⟨rfl, keptUrl_iff.mpr rfl, ?_, htoken⟩
    intro hempty
    change normalUrl given.url = "" at hempty
    rw [hempty] at hurl
    exact absurd hurl (by decide)
  · intro h
    have hurl : kept.url = normalUrl given.url := keptUrl_iff.mp h.url_kept
    have hne : ¬ (normalUrl given.url).isEmpty = true := by
      rw [← hurl]
      simpa using h.url_ne
    have hsame : kept.token = normalToken given.token :=
      Option.ext fun t => (h.token_iff t).trans (htoken t).symm
    unfold usable?
    rw [if_neg hne, Option.some.injEq, Node.normal, ← hurl, ← hsame, ← h.name_eq]

theorem canonicalForm_canonical (s : State) : CanonicalForm s s.canonical where
  node_iff := by
    intro key kept
    rw [get?_canonical, Option.bind_eq_some_iff]
    simp only [usable?_eq_some_iff]
  active_iff := fun _ => Option.filter_eq_some_iff

/-- **One state only is left of a state**: its canonical form. -/
theorem canonicalForm_iff : CanonicalForm s t ↔ t = s.canonical := by
  constructor
  · intro h
    have hs := canonicalForm_canonical s
    have hnodes : t.nodes = s.canonical.nodes := by
      apply Table.ext_of_get?
      intro key
      exact Option.ext fun kept => (h.node_iff key kept).trans (hs.node_iff key kept).symm
    have hactive : t.active = s.canonical.active := by
      apply Option.ext
      intro name
      rw [h.active_iff, hnodes, hs.active_iff]
    cases t
    exact congrArg₂ State.mk hactive hnodes
  · rintro rfl
    exact canonicalForm_canonical s

end State

/-! ## Saves -/

namespace FileStore

/-- **Whether a save succeeds does not depend on the state**, unless writing breaks off. -/
theorem save_result_eq (f : FileStore) (hroom : f.disk.room = none) (s s' : State) :
    (f.save s).2 = (f.save s').2 := by
  have hmade : f.made.room = none := f.grown_made.room.trans hroom
  unfold save
  unfold made at hmade
  split
  · rfl
  · rename_i disk hdisk
    rw [hdisk] at hmade
    have htaken : ∀ content, (disk.taken content).2 = .ok () := by
      intro content
      unfold Disk.taken
      rw [hmade]
    unfold Disk.write
    cases disk.openToWrite f.path with
    | error e => rfl
    | ok opened =>
        cases opened with
        | device => rfl
        | file place access => simp only [htaken]

/-- **What is loaded after a save**, for any state on any disk. Where no write breaks off, the save
succeeds for all states or for none. If it succeeds, every file but the one that the path leads to is as
it was. And if that is a file that may be read, it is the document of the state, and loading gives the
state that is left of the one that was saved, and no other. -/
theorem load_after_save (f : FileStore) :
    (f.disk.room = none → ∀ s s' : State, (f.save s).2 = (f.save s').2) ∧
    ∀ (s : State) (f' : FileStore), f.save s = (f', .ok ()) →
      (∃ t, f'.disk.resolve f'.path = .ok t ∧
        ∀ place, place ≠ t.place → f'.disk.fileAt? place = f.disk.fileAt? place) ∧
      (f'.Legible →
        f.Took s f' ∧ (∃ t, f'.load = .ok t) ∧ ∀ t, f'.load = .ok t ↔ s.CanonicalForm t) := by
  refine ⟨f.save_result_eq, ?_⟩
  intro s f' hsave
  constructor
  · rcases took_or_device_of_save hsave with htook | ⟨⟨content, access, hdevice⟩, hkept⟩
    · obtain ⟨place, hresolve, -, hothers⟩ := htook.file
      exact ⟨_, hresolve, hothers⟩
    · obtain ⟨t, hresolve, -⟩ := Disk.lookup_eq_ok_iff.mp hdevice
      exact ⟨t, hresolve, fun place _ => hkept.files place⟩
  · intro hlegible
    have htook := took_of_save hsave hlegible.not_onDevice
    have hload := load_of_holds htook.holds hlegible
    refine ⟨htook, ⟨s.canonical, hload⟩, ?_⟩
    intro t
    rw [hload, State.canonicalForm_iff, Except.ok.injEq]
    exact eq_comm

/-- Of a state with a node under another name, a blank token, a URL of nothing but slashes that the
active name leads to, and letters that a document escapes, two nodes are left, and none is active. -/
theorem load_after_save_unruly :
    let f : FileStore := ⟨"d/nodes.json", { entries := [(["other"], .file [1])] }⟩
    let s : State := ⟨some "c", Table.ofList
      [("a", ⟨"b", " http://a// ", some " "⟩), ("c", ⟨"c", " // ", some "t"⟩),
        ("\"\n", ⟨"", "\\\x7f/", some " t"⟩)]⟩
    ∃ f', f.save s = (f', .ok ()) ∧ f'.load = .ok ⟨none, Table.ofList
      [("a", ⟨"a", "http://a", none⟩), ("\"\n", ⟨"\"\n", "\\\x7f", some " t"⟩)]⟩ := by
  intro f s
  have hsave : f.save s = ((f.save s).1, .ok ()) := Prod.ext rfl (by decide +kernel)
  have hleft : ⟨none, Table.ofList
      [("a", ⟨"a", "http://a", none⟩), ("\"\n", ⟨"\"\n", "\\\x7f", some " t"⟩)]⟩ =
        s.canonical := by decide +kernel
  have hlegible : (f.save s).1.Legible := by decide +kernel
  obtain ⟨-, hloads⟩ := (load_after_save f).2 s _ hsave
  obtain ⟨-, -, hload⟩ := hloads hlegible
  exact ⟨_, hsave, (hload _).mpr (State.canonicalForm_iff.mpr hleft)⟩

/-- Not every state that has been saved is loaded: a device takes the document and keeps nothing. -/
theorem not_always_loaded :
    ¬ ∀ (f : FileStore) (s : State) (f' : FileStore), f.save s = (f', .ok ()) →
      ∃ t, f'.load = .ok t ∧ s.CanonicalForm t := by
  intro hall
  let f : FileStore := ⟨"/dev/null", .null⟩
  have hsave : f.save {} = ((f.save {}).1, .ok ()) := Prod.ext rfl (by decide +kernel)
  obtain ⟨t, hload, -⟩ := hall f {} _ hsave
  have hfails : (f.save {}).1.load.toBool = false := by decide +kernel
  rw [hload] at hfails
  exact absurd hfails (by simp [Except.toBool])

end FileStore

end ToolNodes
