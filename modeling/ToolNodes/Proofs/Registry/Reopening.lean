import ToolNodes.Proofs.Disk.Path
import ToolNodes.Proofs.Registry.Persistence

/-!
# Registries that reopening does not change

A registry that is what opening its file gives stays so with every call, for as long as no URL comes in
that ends with a blank. Where a call is made, the file has the document of the state. Where its save
fails, the state stays, and so does what the file is read as. That takes a path that can be relied on
(`FileStore.Steady`): what is written there can be read there, and no file comes to light when directories
are made on the way.
-/

namespace ToolNodes

open Text

/-! ## What can be relied on -/

namespace Disk.Entry

/-- A directory, or a file that can be both read and written. -/
def Reliable : Entry → Prop
  | file _ access => access.read = none ∧ access.write = none
  | directory _ => True
  | device _ _ => False

instance : (e : Entry) → Decidable e.Reliable
  | file _ access => inferInstanceAs (Decidable (access.read = none ∧ access.write = none))
  | directory _ => isTrue trivial
  | device _ _ => isFalse id

/-- What cannot be written. -/
def Sealed : Entry → Prop
  | file _ access => access.write ≠ none
  | directory _ => True
  | device _ access => access.write ≠ none

end Disk.Entry

namespace FileStore

variable {s s' : FileStore} {state : State} {cause : StoreError}

/-- No write breaks off, and what the path leads to, be it only when directories have come into being, is
a directory, or a file that can be both read and written, or it cannot be written and is there all
along. -/
structure Steady (s : FileStore) : Prop where
  room : s.disk.room = none
  entry : ∀ {disk : Disk} {e : Disk.Entry}, s.disk.Grown disk → disk.lookup s.path = .ok e →
    e.Reliable ∨ (e.Sealed ∧ s.disk.lookup s.path = .ok e)

/-- Any path can be relied on where all files can be read and written and there are no devices. -/
theorem steady_of_entries (hroom : s.disk.room = none)
    (h : ∀ entry ∈ s.disk.entries, entry.2.Reliable) : s.Steady where
  room := hroom
  entry := by
    intro disk e hgrown hlookup
    obtain ⟨t, -, he, -⟩ := Disk.lookup_eq_ok_iff.mp hlookup
    left
    rcases hgrown.entries t.place with hsame | ⟨-, hdirectory⟩
    · rw [hsame] at he
      unfold Disk.entryAt? at he
      split at he
      · cases he
        trivial
      · obtain ⟨front, back, hentries, -⟩ := List.lookup_eq_some_iff.mp he
        exact h (t.place, e) (by rw [hentries]; simp)
    · rw [hdirectory] at he
      cases he
      trivial

theorem Steady.taken_made (hsteady : s.Steady) (content : List UInt8) :
    s.made.taken content = (content, .ok ()) := by
  unfold Disk.taken
  rw [s.grown_made.room.trans hsteady.room]

/-- A save fails only where no file can be opened. -/
theorem Steady.eq_of_unsaved (hsteady : s.Steady) (h : s.save state = (s', .error cause)) :
    s' = { s with disk := s.made } ∧ ∀ place access, ¬ s.made.OpensFile s.path place access := by
  rcases save_cases s state with ⟨hno, cause', hsave⟩ | ⟨-, hsave⟩ | ⟨place, access, -, hsave⟩
  · rw [hsave] at h
    cases h
    exact ⟨rfl, hno⟩
  · rw [hsave] at h
    exact absurd h (by simp)
  · rw [hsave, hsteady.taken_made, Prod.mk.injEq] at h
    exact absurd h.2 (by simp [Except.mapError])

/-- After a save that fails nothing else is loaded. -/
theorem Steady.loadOrEmpty_of_unsaved (hsteady : s.Steady) (h : s.save state = (s', .error cause)) :
    (Store.file s').loadOrEmpty.1 = (Store.file s).loadOrEmpty.1 := by
  obtain ⟨rfl, hno⟩ := hsteady.eq_of_unsaved h
  cases hlookup : s.disk.lookup s.path with
  | ok e => exact loadOrEmpty_of_lookup ((s.grown_made.lookup hlookup).trans hlookup.symm)
  | error e =>
      rw [loadOrEmpty_of_unread (s := s), loadOrEmpty_of_unread (s := { s with disk := s.made })]
      · intro content hread
        obtain ⟨entry, hentry, hread⟩ := ok_of_bind hread
        rcases hsteady.entry s.grown_made hentry with hreliable | ⟨-, hthere⟩
        · cases entry with
          | directory access => exact absurd hread (by simp [Disk.Entry.read])
          | device content access => exact hreliable.elim
          | file content access =>
              obtain ⟨place, hopens⟩ := Disk.opensFile_of_lookup hentry hreliable.2
              exact hno place access hopens
        · rw [hlookup] at hthere
          exact absurd hthere (by simp)
      · intro content hread
        obtain ⟨entry, hentry, -⟩ := ok_of_bind hread
        rw [hlookup] at hentry
        exact absurd hentry (by simp)

theorem Steady.of_unsaved (hsteady : s.Steady) (h : s.save state = (s', .error cause)) :
    s'.Steady := by
  obtain ⟨rfl, -⟩ := hsteady.eq_of_unsaved h
  refine ⟨s.grown_made.room.trans hsteady.room, ?_⟩
  intro disk e hgrown hlookup
  rcases hsteady.entry (s.grown_made.trans hgrown) hlookup with hreliable | ⟨hsealed, hthere⟩
  · exact Or.inl hreliable
  · exact Or.inr ⟨hsealed, s.grown_made.lookup hthere⟩

/-- A file that is opened can be both read and written. -/
theorem Steady.open_of_opensFile (hsteady : s.Steady) {place : List String} {access : Disk.Access}
    (hopens : s.made.OpensFile s.path place access) : access.read = none ∧ access.write = none := by
  rcases hopens.entry with ⟨content, he, hwrite⟩ | ⟨-, -, rfl⟩
  · have hlookup : s.made.lookup s.path = .ok (.file content access) :=
      Disk.lookup_eq_ok_iff.mpr ⟨_, hopens.resolve, he, fun hdir => absurd hdir (by simp)⟩
    rcases hsteady.entry s.grown_made hlookup with hreliable | ⟨hsealed, -⟩
    · exact hreliable
    · exact absurd hwrite hsealed
  · exact ⟨rfl, rfl⟩

/-- After a save that succeeds the file holds the state and can be read, and can be relied on as before. -/
theorem Steady.of_saved (hsteady : s.Steady) (h : s.save state = (s', .ok ())) :
    s'.Holds state ∧ s'.Legible ∧ s'.Steady := by
  rcases save_cases s state with ⟨-, cause, hsave⟩ | ⟨hdevice, hsave⟩ | ⟨place, access, hopens, hsave⟩
  · rw [hsave] at h
    exact absurd h (by simp)
  · obtain ⟨content, access, hlookup, hwrite⟩ := hdevice
    rcases hsteady.entry s.grown_made hlookup with hreliable | ⟨hsealed, -⟩
    · exact hreliable.elim
    · exact absurd hwrite hsealed
  · rw [hsave, hsteady.taken_made] at h
    cases h
    have hopen := hsteady.open_of_opensFile hopens
    have hlookup := hopens.lookup_put (document state)
    refine ⟨⟨access, hlookup⟩, ⟨_, access, hlookup, hopen.1⟩,
      s.grown_made.room.trans hsteady.room, ?_⟩
    intro disk e hgrown he
    rw [hgrown.lookup hlookup] at he
    cases he
    exact Or.inl hopen

end FileStore

/-! ## URLs without blanks -/

/-- No URL of a document's nodes has a blank in it. -/
def Json.SolidUrls (doc : Json) : Prop :=
  ∀ members, (doc.get? "nodes").bind Json.members? = some members →
    ∀ m ∈ members, ∀ url, m.2.text? "url" = some url → ∀ c ∈ url.toList, isBlank c = false

/-- If a file is there and can be read, no URL that it lists has a blank in it. -/
def FileStore.SolidUrls (f : FileStore) : Prop :=
  ∀ text doc, f.text = .ok text → Json.ofString text = .ok doc → doc.SolidUrls

instance (doc : Json) : Decidable doc.SolidUrls :=
  decidable_of_iff
    (((doc.get? "nodes").bind Json.members?).all (fun members => members.all fun m =>
      (m.2.text? "url").all fun url => url.toList.all fun c => !isBlank c) = true)
    (by
      unfold Json.SolidUrls
      simp only [Option.all_eq_true, List.all_eq_true, Bool.not_eq_true'])

instance (f : FileStore) : Decidable f.SolidUrls :=
  match htext : f.text with
  | .error e => isTrue fun _ _ ht => by
      rw [htext] at ht
      exact absurd ht (by simp)
  | .ok text =>
    match hdoc : Json.ofString text with
    | .error e => isTrue fun _ _ ht hd => by
        rw [htext] at ht
        rw [← Except.ok.inj ht, hdoc] at hd
        exact absurd hd (by simp)
    | .ok doc => decidable_of_iff doc.SolidUrls (by
        constructor
        · intro h text' doc' ht hd
          rw [htext] at ht
          rw [← Except.ok.inj ht, hdoc] at hd
          rw [← Except.ok.inj hd]
          exact h
        · intro h
          exact h text doc htext hdoc)

def State.EndsSolid (s : State) : Prop :=
  ∀ key node, s.nodes.get? key = some node → endsBlank node.url = false

theorem endsBlank_normalUrl {url : String} (h : ∀ c ∈ url.toList, isBlank c = false) :
    endsBlank (normalUrl url) = false := by
  unfold endsBlank endsIn
  cases hlast : (normalUrl url).toList.getLast? with
  | none => rfl
  | some c =>
      obtain ⟨lead, trail, hparts, -⟩ := parts_of_trim url.toList
      have hmem : c ∈ url.toList := by
        rw [hparts]
        exact List.mem_append_left _ (List.mem_append_right _
          ((normalUrl_prefix_trim url).subset (List.mem_of_getLast? hlast)))
      exact h c hmem

namespace State

theorem endsSolid_empty : EndsSolid empty := by
  intro key node h
  exact absurd h (by simp [empty, Table.get?, Entries.get?])

theorem endsSolid_ofJson {doc : Json} (h : doc.SolidUrls) : (ofJson doc).EndsSolid := by
  intro key node hnode
  obtain ⟨m, hm, hkept⟩ := List.mem_filterMap.mp (Table.get?_ofList_mem hnode)
  obtain ⟨n, hn, heq⟩ := Option.map_eq_some_iff.mp hkept
  cases heq
  cases hmembers : (doc.get? "nodes").bind Json.members? with
  | none =>
      rw [hmembers] at hm
      exact absurd hm List.not_mem_nil
  | some members =>
      rw [hmembers] at hm
      unfold nodeOfJson? at hn
      split at hn
      · obtain ⟨url, hurl, husable⟩ := Option.bind_eq_some_iff.mp hn
        obtain ⟨-, rfl⟩ := usable?_eq_some husable
        exact endsBlank_normalUrl (h members hmembers m hm url hurl)
      · exact absurd hn (by simp)

end State

/-! ## Settled registries -/

/-- What a store holds can be relied on. -/
def Store.Steady : Store → Prop
  | memory _ => True
  | file f => f.Steady

namespace Registry

/-- A registry that is what opening its store gives, with no URL that ends with a blank, over a store
that can be relied on. -/
structure Settled (r : Registry) : Prop where
  steady : r.store.Steady
  loads : r.store.loadOrEmpty.1 = r.state
  sound : r.state.Sound
  ends : r.state.EndsSolid

variable {r : Registry} {e : Edit}

theorem Settled.reopened_eq (h : r.Settled) : r.reopened = r := by
  show (⟨r.store, r.store.loadOrEmpty.1⟩ : Registry) = r
  rw [h.loads]

/-- A registry is settled when it is opened on a file that can be relied on and lists no URL with a
blank. -/
theorem settled_openStore {f : FileStore} (hsteady : f.Steady) (h : f.SolidUrls) :
    (openStore (.file f)).1.Settled where
  steady := hsteady
  loads := rfl
  sound := Store.sound_loadOrEmpty f
  ends := by
    show ((Store.file f).loadOrEmpty.1).EndsSolid
    cases hload : (Store.file f).load with
    | error cause =>
        unfold Store.loadOrEmpty
        rw [hload]
        exact State.endsSolid_empty
    | ok state =>
        rw [Store.loadOrEmpty_of_load hload]
        rcases FileStore.load_eq_ok hload with rfl | ⟨text, doc, htext, hdoc, rfl⟩
        · exact State.endsSolid_empty
        · exact State.endsSolid_ofJson (h text doc htext hdoc)

namespace Edit

/-- The URL that a call brings in, if it brings one, has no blank in it. -/
def SolidUrl : Edit → Prop
  | add _ url _ => ∀ c ∈ url.toList, isBlank c = false
  | _ => True

theorem endsSolid_next {s : State} (h : s.EndsSolid) (he : e.SolidUrl) : (e.next s).EndsSolid := by
  intro key node hnode
  cases e with
  | add name url token =>
      simp only [next, afterAdd, Table.get?_insert] at hnode
      split at hnode
      · cases hnode
        exact endsBlank_normalUrl he
      · exact h key node hnode
  | remove name =>
      simp only [next, afterRemove, Table.get?_erase] at hnode
      split at hnode
      · exact absurd hnode (by simp)
      · exact h key node hnode
  | use name => exact h key node hnode

end Edit

/-- **A call leaves a settled registry settled**, whether it is made or fails. -/
theorem settled_edit {f : FileStore} (hstore : r.store = .file f) (h : r.Settled)
    (he : e.SolidUrl) : (r.edit e).registry.Settled := by
  have hsteady : f.Steady := by
    have hsteady := h.steady
    rw [hstore] at hsteady
    exact hsteady
  rcases edit_cases r e with ⟨-, hedit⟩ | ⟨hyes, store, hsave, hedit⟩ | ⟨-, store, cause, hsave, hedit⟩
  · rw [hedit]
    exact h
  · rw [hstore] at hsave
    obtain ⟨f', hsaved, rfl⟩ := Store.save_file_eq hsave
    have hsound := sound_next h.sound hyes
    have hends := Edit.endsSolid_next h.ends he
    obtain ⟨hholds, hlegible, hsteady'⟩ := hsteady.of_saved hsaved
    rw [hedit]
    refine ⟨hsteady', ?_, hsound, hends⟩
    show (Store.file f').loadOrEmpty.1 = e.next r.state
    rw [Store.loadOrEmpty_of_holds hholds hlegible]
    exact State.canonical_eq_self hsound hends
  · rw [hstore] at hsave
    obtain ⟨f', hsaved, rfl⟩ := Store.save_file_eq hsave
    rw [hedit]
    refine ⟨hsteady.of_unsaved hsaved, ?_, h.sound, h.ends⟩
    show (Store.file f').loadOrEmpty.1 = r.state
    rw [hsteady.loadOrEmpty_of_unsaved hsaved, ← hstore]
    exact h.loads

end Registry

end ToolNodes
