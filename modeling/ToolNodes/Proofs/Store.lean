import ToolNodes.Store
import ToolNodes.Proofs.Disk.Path
import ToolNodes.Proofs.State
import ToolNodes.Proofs.Text.Utf8

/-!
# What a save does to a store

A save takes the state, or keeps what the store held, or breaks off in the file (`save_cases`).
`Store.Took` and `Store.Kept` say which, for a snapshot in memory and for the files of a disk;
directories that have been made are all that a save may leave behind beside its file. A file that took a
state holds it for as long as nothing else is written to it, and loads its canonical form if it may be
read.
-/

namespace ToolNodes

/-! ## Files -/

namespace FileStore

variable {s s' s'' : FileStore} {state : State} {cause : StoreError}

/-- The disk when the directories of the path have been made, or as many of them as can be. -/
def made (s : FileStore) : Disk := (s.disk.makeDirectories (pathComponents s.path).reverse.tail).1

/-- The save of a state breaks off after the file was opened. -/
def BreaksOff (s : FileStore) (state : State) : Prop := s.made.BreaksOff s.path (document state)

/-- The path leads to a device. -/
def OnDevice (s : FileStore) : Prop :=
  ∃ content access, s.disk.lookup s.path = .ok (.device content access)

/-- The path leads to a file that may be read. -/
def Legible (s : FileStore) : Prop :=
  ∃ content access, s.disk.lookup s.path = .ok (.file content access) ∧ access.read = none

instance (s : FileStore) : Decidable s.Legible :=
  decidable_of_iff ((match s.disk.lookup s.path with
    | .ok (.file _ access) => access.read.isNone
    | _ => false) = true) (by
      unfold Legible
      split
      · rename_i content access h
        simp [h, Option.isNone_iff_eq_none]
      · rename_i hno
        simp only [Bool.false_eq_true, false_iff, not_exists, not_and]
        exact fun content access h => absurd h (hno content access))

instance (s : FileStore) : Decidable s.OnDevice :=
  decidable_of_iff ((match s.disk.lookup s.path with
    | .ok (.device _ _) => true
    | _ => false) = true) (by
      unfold OnDevice
      split
      · rename_i content access h
        simp [h]
      · rename_i hno
        simp only [Bool.false_eq_true, false_iff, not_exists]
        exact fun content access h => hno content access h)

/-- The file of the store is the document of a state. -/
def Holds (s : FileStore) (state : State) : Prop :=
  ∃ access, s.disk.lookup s.path = .ok (.file (document state) access)

/-- Every file is as it was; directories may have come into being. -/
structure Kept (s s' : FileStore) : Prop where
  path : s'.path = s.path
  files : ∀ place, s'.disk.fileAt? place = s.disk.fileAt? place
  grown : Disk.Grown s.disk s'.disk

/-- The file of the store is the document of a state, and every other file is as it was. -/
structure Took (state : State) (s s' : FileStore) : Prop where
  path : s'.path = s.path
  file : ∃ place, s'.disk.resolve s'.path = .ok ⟨place, false⟩ ∧
    s'.disk.fileAt? place = some (document state) ∧
    ∀ other, other ≠ place → s'.disk.fileAt? other = s.disk.fileAt? other

theorem grown_made (s : FileStore) : Disk.Grown s.disk s.made := Disk.grown_makeDirectories _ _

theorem kept_of_grown {disk : Disk} (h : Disk.Grown s.disk disk) : s.Kept { s with disk } :=
  ⟨rfl, h.fileAt?, h⟩

/-- **All that a save can do**: it is refused, or goes to a device, or writes to one file. -/
theorem save_cases (s : FileStore) (state : State) :
    ((∀ place access, ¬ s.made.OpensFile s.path place access) ∧
      ∃ cause, s.save state = ({ s with disk := s.made }, .error cause)) ∨
    (s.made.OpensDevice s.path ∧
      s.save state = ({ s with disk := s.made }, .ok ())) ∨
    ∃ place access, s.made.OpensFile s.path place access ∧
      s.save state =
        ({ s with disk := s.made.put place (.file (s.made.taken (document state)).1 access) },
          (s.made.taken (document state)).2.mapError .io) := by
  unfold save made
  cases hmade : s.disk.makeDirectories (pathComponents s.path).reverse.tail with
  | mk disk result =>
      cases result with
      | error e =>
          refine Or.inl ⟨?_, .io e, rfl⟩
          intro place access hopens
          exact Disk.resolve_ne_of_makeDirectories hmade place hopens.resolve
      | ok _ =>
          simp only
          rcases disk.write_cases s.path (document state) with
            ⟨hno, e, hwrite⟩ | ⟨hdevice, hwrite⟩ | ⟨place, access, hopens, hwrite⟩
          · rw [hwrite]
            exact Or.inl ⟨hno, .io e, rfl⟩
          · rw [hwrite]
            exact Or.inr (Or.inl ⟨hdevice, rfl⟩)
          · rw [hwrite]
            exact Or.inr (Or.inr ⟨place, access, hopens, rfl⟩)

/-- A file that is a document loads as the state of the document. -/
theorem load_of_text {text : String} {doc : Json} (htext : s.text = .ok text)
    (hdoc : Json.ofString text = .ok doc) : s.load = .ok (.ofJson doc) := by
  have hpresent : s.present = true := by
    unfold present Disk.contains
    cases hlookup : s.disk.lookup s.path with
    | ok entry => rfl
    | error e => exact absurd htext (by simp [FileStore.text, Disk.read, hlookup, Except.bind])
  unfold load
  rw [hpresent, htext]
  simp only [Bool.not_true, Bool.false_eq_true, if_false, Except.bind, hdoc]

/-- The document of a state loads as its canonical form. -/
theorem load_of_holds (h : s.Holds state) (hlegible : s.Legible) :
    s.load = .ok state.canonical := by
  obtain ⟨access, hlookup⟩ := h
  obtain ⟨content, access', hlookup', hread⟩ := hlegible
  rw [hlookup] at hlookup'
  cases hlookup'
  have htext : s.text = .ok state.toJson.pretty := by
    have hbytes : s.disk.read s.path = .ok (document state) := by
      unfold Disk.read
      rw [hlookup]
      simp only [Except.bind, Disk.Entry.read, hread, Option.elim_none]
    unfold text
    rw [hbytes]
    simp only [document, Text.Utf8.decode?_encode]
  have hdoc := Json.ofString_pretty (State.plain_toJson state) (State.height_toJson state)
  rw [load_of_text htext hdoc, State.ofJson_ordered_toJson]

theorem load_of_absent (h : s.present = false) : s.load = .ok .empty := by
  unfold load
  rw [h]
  rfl

/-- Whatever the file says, what loads is the empty state or that of the document in the file. -/
theorem load_eq_ok (h : s.load = .ok state) :
    state = .empty ∨
      ∃ text doc, s.text = .ok text ∧ Json.ofString text = .ok doc ∧ state = .ofJson doc := by
  unfold load at h
  split at h
  · cases h
    exact Or.inl rfl
  · obtain ⟨text, htext, h⟩ := ok_of_bind h
    split at h
    · rename_i doc hdoc
      cases h
      exact Or.inr ⟨text, doc, htext, hdoc, rfl⟩
    · exact absurd h (by simp)

/-- A file that is opened and takes all of the document is the document then. -/
theorem took_put {place : List String} {access : Disk.Access}
    (hopens : s.made.OpensFile s.path place access) :
    Took state s { s with disk := s.made.put place (.file (document state) access) } := by
  refine ⟨rfl, place, hopens.resolve_put _, ?_, ?_⟩
  · unfold Disk.fileAt?
    rw [Disk.entryAt?_put_self _ hopens.not_directoryAt]
  · intro other hne
    exact (Disk.fileAt?_put_of_ne s.made _ hne).trans (s.grown_made.fileAt? other)

theorem took_or_device_of_save (h : s.save state = (s', .ok ())) :
    Took state s s' ∨ (s'.OnDevice ∧ s.Kept s') := by
  rcases save_cases s state with ⟨-, cause, hsave⟩ | ⟨hdevice, hsave⟩ | ⟨place, access, hopens, hsave⟩
  · rw [hsave] at h
    exact absurd h (by simp)
  · rw [hsave] at h
    cases h
    obtain ⟨content, access, hlookup, -⟩ := hdevice
    exact Or.inr ⟨⟨content, access, hlookup⟩, kept_of_grown s.grown_made⟩
  · rw [hsave, Prod.mk.injEq] at h
    obtain ⟨rfl, hresult⟩ := h
    have hall : (s.made.taken (document state)).2 = .ok () := by
      cases hend : (s.made.taken (document state)).2 with
      | ok _ => rfl
      | error e => exact absurd hresult (by simp [hend, Except.mapError])
    rw [Disk.taken_of_ok hall]
    exact Or.inl (took_put hopens)

theorem Took.holds (h : Took state s s') : s'.Holds state := by
  obtain ⟨place, hresolve, hfile, -⟩ := h.file
  unfold Disk.fileAt? at hfile
  split at hfile
  · rename_i content access he
    cases hfile
    exact ⟨access, Disk.lookup_eq_ok_iff.mpr ⟨_, hresolve, he, fun hdir => absurd hdir (by simp)⟩⟩
  · exact absurd hfile (by simp)

theorem Legible.not_onDevice (h : s.Legible) : ¬ s.OnDevice := by
  rintro ⟨content, access, hdevice⟩
  obtain ⟨content', access', hlookup, -⟩ := h
  rw [hdevice] at hlookup
  exact absurd hlookup (by simp)

/-- **A save that succeeds takes the state**, unless it goes to a device. -/
theorem took_of_save (h : s.save state = (s', .ok ())) (hdevice : ¬ s'.OnDevice) : Took state s s' := by
  rcases took_or_device_of_save h with htook | ⟨hon, -⟩
  · exact htook
  · exact absurd hon hdevice

/-- **A save that fails keeps what was there**, unless it breaks off in the file. -/
theorem kept_of_save (h : s.save state = (s', .error cause)) (hwhole : ¬ s.BreaksOff state) :
    s.Kept s' := by
  rcases save_cases s state with ⟨-, cause', hsave⟩ | ⟨-, hsave⟩ | ⟨place, access, hopens, hsave⟩
  · rw [hsave] at h
    cases h
    exact kept_of_grown s.grown_made
  · rw [hsave] at h
    exact absurd h (by simp)
  · rw [hsave, Prod.mk.injEq] at h
    cases hend : (s.made.taken (document state)).2 with
    | ok _ => exact absurd h.2 (by simp [hend, Except.mapError])
    | error e => exact absurd ⟨⟨place, access, hopens⟩, e, hend⟩ hwhole

theorem path_of_save {result : Except StoreError Unit} (h : s.save state = (s', result)) :
    s'.path = s.path := by
  rcases save_cases s state with ⟨-, cause, hsave⟩ | ⟨-, hsave⟩ | ⟨place, access, -, hsave⟩ <;>
    rw [hsave] at h <;> cases h <;> rfl

/-- What is loaded, or counts as loaded, depends on what the path leads to. -/
theorem loadOrEmpty_of_lookup
    (hlookup : s'.disk.lookup s'.path = s.disk.lookup s.path) :
    (Store.file s').loadOrEmpty.1 = (Store.file s).loadOrEmpty.1 := by
  have hload : (Store.file s').load = (Store.file s).load := by
    show s'.load = s.load
    unfold load present text Disk.contains Disk.read
    rw [hlookup]
  unfold Store.loadOrEmpty
  rw [hload]
  cases (Store.file s).load with
  | ok state => rfl
  | error e => rfl

/-- Where nothing can be read the empty state is loaded. -/
theorem loadOrEmpty_of_unread (h : ∀ content, s.disk.read s.path ≠ .ok content) :
    (Store.file s).loadOrEmpty.1 = .empty := by
  have hload : (Store.file s).load = .ok .empty ∨ ∃ e, (Store.file s).load = .error e := by
    show s.load = .ok .empty ∨ ∃ e, s.load = .error e
    unfold load text
    split
    · exact Or.inl rfl
    · cases hread : s.disk.read s.path with
      | ok content => exact absurd hread (h content)
      | error e => exact Or.inr ⟨.io e, rfl⟩
  unfold Store.loadOrEmpty
  rcases hload with hload | ⟨e, hload⟩
  · rw [hload]
  · rw [hload]

end FileStore

/-! ## Stores -/

namespace Store

variable {s s' : Store} {state : State} {cause : StoreError}

/-- The store holds what it held: in memory the same snapshot after as many saves, on a disk the same
files. -/
def Kept : Store → Store → Prop
  | memory m, memory m' => m' = m
  | file f, file f' => f.Kept f'
  | _, _ => False

def fileAt? : Store → List String → Option (List UInt8)
  | memory _, _ => none
  | file f, place => f.disk.fileAt? place

/-- The store has taken a state: in memory as the snapshot, with one save more, on a disk as the
document in its file. -/
def Took (state : State) : Store → Store → Prop
  | memory m, memory m' => m' = { m with state, saves := m.saves + 1 }
  | file f, file f' => f.Took state f'
  | _, _ => False

def Holds (state : State) : Store → Prop
  | memory m => m.state = state
  | file f => f.Holds state

/-- The save of a state breaks off in a file. -/
def BreaksOff (state : State) : Store → Prop
  | memory _ => False
  | file f => f.BreaksOff state

/-- The store is a device. -/
def OnDevice : Store → Prop
  | memory _ => False
  | file f => f.OnDevice

instance : (s : Store) → Decidable s.OnDevice
  | memory _ => isFalse id
  | file f => inferInstanceAs (Decidable f.OnDevice)

/-- Writing to the store never breaks off. -/
def Roomy : Store → Prop
  | memory _ => True
  | file f => f.disk.room = none

/-- What the store holds can be read. -/
def Legible : Store → Prop
  | memory _ => True
  | file f => f.Legible

instance : (s : Store) → Decidable s.Legible
  | memory _ => isTrue trivial
  | file f => inferInstanceAs (Decidable f.Legible)

theorem save_file_eq {f : FileStore} {result : Except StoreError Unit}
    (h : (file f).save state = (s', result)) : ∃ f', f.save state = (f', result) ∧ s' = file f' := by
  cases hsaved : f.save state with
  | mk f' saved =>
      change Prod.map file id (f.save state) = (s', result) at h
      rw [hsaved] at h
      cases h
      exact ⟨f', rfl, rfl⟩

/-- **A save that succeeds takes the state**, unless it goes to a device, which keeps nothing. -/
theorem took_or_device_of_save (h : s.save state = (s', .ok ())) :
    Took state s s' ∨ (s'.OnDevice ∧ s.Kept s') := by
  cases s with
  | memory m =>
      simp only [save, MemoryStore.save] at h
      split at h
      · exact absurd h (by simp [Prod.map])
      · cases h
        exact Or.inl rfl
  | file f =>
      obtain ⟨f', hsaved, rfl⟩ := save_file_eq h
      exact FileStore.took_or_device_of_save hsaved

/-- **A save that fails keeps what was there**, unless it breaks off in the file. -/
theorem kept_of_save (h : s.save state = (s', .error cause)) (hwhole : ¬ s.BreaksOff state) :
    s.Kept s' := by
  cases s with
  | memory m =>
      simp only [save, MemoryStore.save] at h
      split at h
      · cases h
        exact rfl
      · exact absurd h (by simp [Prod.map])
  | file f =>
      obtain ⟨f', hsaved, rfl⟩ := save_file_eq h
      exact FileStore.kept_of_save hsaved hwhole

theorem not_breaksOff_of_roomy (h : s.Roomy) : ¬ s.BreaksOff state := by
  cases s with
  | memory m => exact id
  | file f =>
      rintro ⟨-, e, hend⟩
      have hroom : f.made.room = none := f.grown_made.room.trans h
      unfold Disk.taken at hend
      rw [hroom] at hend
      exact absurd hend (by simp)

theorem roomy_of_save {result : Except StoreError Unit} (h : s.save state = (s', result))
    (hroomy : s.Roomy) : s'.Roomy := by
  cases s with
  | memory m =>
      have hs' : memory (m.save state).1 = s' := congrArg Prod.fst h
      rw [← hs']
      trivial
  | file f =>
      obtain ⟨f', hsaved, rfl⟩ := save_file_eq h
      have hroom : f.made.room = none := f.grown_made.room.trans hroomy
      rcases f.save_cases state with ⟨-, cause, hsave⟩ | ⟨-, hsave⟩ | ⟨place, access, -, hsave⟩ <;>
        rw [hsave] at hsaved <;> cases hsaved <;> exact hroom

/-- A save does not change how messages name the store. -/
theorem describe_of_save {result : Except StoreError Unit} (h : s.save state = (s', result)) :
    s'.describe = s.describe := by
  cases s with
  | memory m =>
      have hs' : memory (m.save state).1 = s' := congrArg Prod.fst h
      rw [← hs']
      rfl
  | file f =>
      obtain ⟨f', hsaved, rfl⟩ := save_file_eq h
      exact FileStore.path_of_save hsaved

theorem Took.holds (h : Took state s s') : s'.Holds state := by
  cases s <;> cases s' <;> first | exact h.elim | skip
  · cases h
    exact rfl
  · exact FileStore.Took.holds h

theorem Holds.not_onDevice (h : s.Holds state) : ¬ s.OnDevice := by
  cases s with
  | memory m => exact id
  | file f =>
      rintro ⟨content, access, hdevice⟩
      obtain ⟨access', hlookup⟩ := h
      rw [hdevice] at hlookup
      exact absurd hlookup (by simp)

theorem Kept.refl (s : Store) : s.Kept s := by
  cases s with
  | memory m => exact rfl
  | file f => exact FileStore.kept_of_grown (Disk.Grown.refl f.disk)

theorem Kept.fileAt? (h : s.Kept s') (place : List String) : s'.fileAt? place = s.fileAt? place := by
  cases s <;> cases s' <;> first | exact h.elim | skip
  · rfl
  · exact FileStore.Kept.files h place

theorem Kept.holds (h : s.Kept s') (hs : s.Holds state) : s'.Holds state := by
  cases s <;> cases s' <;> first | exact h.elim | skip
  · cases h
    exact hs
  · rename_i f f'
    have hkept : f.Kept f' := h
    obtain ⟨access, hlookup⟩ : f.Holds state := hs
    refine ⟨access, ?_⟩
    rw [hkept.path]
    exact hkept.grown.lookup hlookup

/-! ## Loading -/

theorem loadOrEmpty_of_load (h : s.load = .ok state) : s.loadOrEmpty = (state, []) := by
  unfold loadOrEmpty
  rw [h]

/-- What a store holds loads as its canonical form from a file that may be read. -/
theorem loadOrEmpty_of_holds {f : FileStore} (h : f.Holds state) (hlegible : f.Legible) :
    (file f).loadOrEmpty = (state.canonical, []) :=
  loadOrEmpty_of_load (s := file f) (FileStore.load_of_holds h hlegible)

/-- **What a file is opened with is sound**, whatever is in it. -/
theorem sound_loadOrEmpty (f : FileStore) : (file f).loadOrEmpty.1.Sound := by
  cases hload : (file f).load with
  | error e =>
      unfold loadOrEmpty
      rw [hload]
      exact State.sound_empty
  | ok state =>
      rw [loadOrEmpty_of_load hload]
      rcases FileStore.load_eq_ok hload with rfl | ⟨text, doc, -, -, rfl⟩
      · exact State.sound_empty
      · exact State.sound_ofJson doc

end Store

end ToolNodes
