import ToolNodes.Disk
import ToolNodes.Proofs.Basic

/-!
# What writing changes on a disk

`Disk.Grown` is what happens before a file is written: directories may come into being where nothing
was. Writing then changes the content of one file, the one that the path leads to (`write_cases`), and
if it does not break off, that is what has been written. A walk succeeds by the directories it meets
(`Leads`), so it leads to the same place on every disk that has at least those.
-/

namespace ToolNodes.Disk

variable {d d' d'' : Disk} {place target : List String} {path : String} {content : List UInt8}
  {access : Access}

/-- The content of the file at a place, if one is there. -/
def fileAt? (d : Disk) (place : List String) : Option (List UInt8) :=
  match d.entryAt? place with
  | some (.file content _) => some content
  | _ => none

def DirectoryAt (d : Disk) (place : List String) : Prop :=
  ∃ access, d.entryAt? place = some (.directory access)

/-- Every directory of a disk is on another one, with the same refusals. -/
def DirectoriesIn (d d' : Disk) : Prop :=
  ∀ place access, d.entryAt? place = some (.directory access) →
    d'.entryAt? place = some (.directory access)

/-- Directories have come into being where nothing was, and nothing else has changed. -/
structure Grown (d d' : Disk) : Prop where
  entries : ∀ place, d'.entryAt? place = d.entryAt? place ∨
    (d.entryAt? place = none ∧ d'.entryAt? place = some .directory)
  room : d'.room = d.room

/-- What a path is opened as when that is a file: the place that it leads to, where there is a file
that may be written, or nothing yet. -/
structure OpensFile (d : Disk) (path : String) (place : List String) (access : Access) : Prop where
  resolve : d.resolve path = .ok ⟨place, false⟩
  entry : (∃ content, d.entryAt? place = some (.file content access) ∧ access.write = none) ∨
    (d.entryAt? place = none ∧ d.refusalAt place = none ∧ access = {})

/-- A path leads to a device that may be written to. -/
def OpensDevice (d : Disk) (path : String) : Prop :=
  ∃ content access, d.lookup path = .ok (.device content access) ∧ access.write = none

/-- What is written to a file at a path breaks off after it was opened. -/
def BreaksOff (d : Disk) (path : String) (content : List UInt8) : Prop :=
  (∃ place access, d.OpensFile path place access) ∧ ∃ e, (d.taken content).2 = .error e

/-- A disk with nothing on it but the device that is always empty. -/
def null : Disk :=
  { entries := [(["", "dev"], .directory), (["", "dev", "null"], .device [])] }

/-! ## Entries -/

theorem lookup_clear_of_ne (entries : List (List String × Entry)) (h : target ≠ place) :
    (entries.filter fun e => e.1 ≠ place).lookup target = entries.lookup target := by
  induction entries with
  | nil => rfl
  | cons e rest ih =>
      by_cases he : e.1 = place
      · rw [List.filter_cons_of_neg (by simpa using he), ih, List.lookup_cons]
        have hne : (target == e.1) = false := by
          rw [he]
          exact beq_false_of_ne h
        rw [hne]
      · rw [List.filter_cons_of_pos (by simpa using he), List.lookup_cons, List.lookup_cons, ih]

theorem entryAt?_put_self (e : Entry) (h : ¬ d.DirectoryAt place) :
    (d.put place e).entryAt? place = some e := by
  unfold entryAt?
  split
  · rename_i hplace
    refine absurd ⟨d.accessAt place, ?_⟩ h
    rw [entryAt?, if_pos hplace]
  · simp [put]

theorem entryAt?_put_of_ne (d : Disk) (e : Entry) (h : target ≠ place) :
    (d.put place e).entryAt? target = d.entryAt? target := by
  have hlookup : (d.put place e).entries.lookup target = d.entries.lookup target := by
    have hne : (target == place) = false := beq_false_of_ne h
    simp only [put, clear, List.lookup_cons, hne]
    exact lookup_clear_of_ne d.entries h
  unfold entryAt? accessAt
  rw [hlookup]

theorem fileAt?_put_of_ne (d : Disk) (e : Entry) (h : target ≠ place) :
    (d.put place e).fileAt? target = d.fileAt? target := by
  unfold fileAt?
  rw [entryAt?_put_of_ne d e h]

/-! ## Walking -/

/-- There is a directory at a place, and one may walk on from it. -/
def Searchable (d : Disk) (place : List String) : Prop :=
  ∃ access, d.entryAt? place = some (.directory access) ∧ access.search = none

/-- A part of a path that names an entry of a directory. -/
structure IsName (c : String) : Prop where
  ne : c ≠ ""
  ne_dot : c ≠ "."
  ne_up : c ≠ ".."
  size_le : c.utf8ByteSize ≤ maxName

/-- Where the parts of a path lead from a place. -/
inductive Leads (d : Disk) : List String → List String → Target → Prop where
  | stay {here : List String} : Leads d here [] ⟨here, true⟩
  | slash {here rest : List String} {t : Target} :
      d.DirectoryAt here → Leads d here rest t → Leads d here ("" :: rest) t
  | dot {here rest : List String} {t : Target} :
      d.Searchable here → Leads d here rest t → Leads d here ("." :: rest) t
  | up {here rest : List String} {t : Target} :
      d.Searchable here → Leads d (above here) rest t → Leads d here (".." :: rest) t
  | last {here : List String} {c : String} {rest : List String} :
      d.Searchable here → IsName c → rest.all String.isEmpty = true →
        Leads d here (c :: rest) ⟨here ++ [c], !rest.isEmpty⟩
  | down {here : List String} {c : String} {rest : List String} {t : Target} :
      d.Searchable here → IsName c → rest.all String.isEmpty = false →
        Leads d (here ++ [c]) rest t → Leads d here (c :: rest) t

theorem leads_of_walk : ∀ {parts place : List String} {t : Target},
    d.walk place parts = .ok t → d.Leads place parts t
  | [], place, t, h => by
      cases h
      exact .stay
  | c :: rest, place, t, h => by
      rw [walk] at h
      split at h
      · exact absurd h (by simp)
      · rename_i access he
        split at h
        · rename_i hempty
          subst hempty
          exact .slash ⟨access, he⟩ (leads_of_walk h)
        rename_i hempty
        split at h
        · exact absurd h (by simp)
        rename_i hsearch
        have hsearchable : d.Searchable place := ⟨access, he, hsearch⟩
        split at h
        · rename_i hdot
          subst hdot
          exact .dot hsearchable (leads_of_walk h)
        rename_i hdot
        split at h
        · rename_i hup
          subst hup
          exact .up hsearchable (leads_of_walk h)
        rename_i hup
        split at h
        · exact absurd h (by simp)
        rename_i hlong
        have hname : IsName c := ⟨hempty, hdot, hup, Nat.le_of_not_lt hlong⟩
        split at h
        · rename_i hlast
          cases h
          exact .last hsearchable hname hlast
        · rename_i hmore
          exact .down hsearchable hname (by simpa using hmore) (leads_of_walk h)
      · exact absurd h (by simp)

theorem walk_of_leads {parts : List String} {t : Target} (h : d.Leads place parts t) :
    d.walk place parts = .ok t := by
  induction h with
  | stay => rfl
  | slash hdir _ ih =>
      obtain ⟨access, he⟩ := hdir
      rw [walk, he]
      exact ih
  | dot hdir _ ih =>
      obtain ⟨access, he, hsearch⟩ := hdir
      rw [walk, he]
      simpa [hsearch] using ih
  | up hdir _ ih =>
      obtain ⟨access, he, hsearch⟩ := hdir
      rw [walk, he]
      simpa [hsearch] using ih
  | last hdir hname hlast =>
      obtain ⟨access, he, hsearch⟩ := hdir
      rw [walk, he]
      simp only [hsearch, hname.ne, hname.ne_dot, hname.ne_up, Nat.not_lt.mpr hname.size_le, hlast,
        if_false, if_true]
  | down hdir hname hmore _ ih =>
      obtain ⟨access, he, hsearch⟩ := hdir
      rw [walk, he]
      simp only [hsearch, hname.ne, hname.ne_dot, hname.ne_up, Nat.not_lt.mpr hname.size_le, hmore,
        Bool.false_eq_true, if_false]
      exact ih

/-- **Where a walk leads**, if it leads anywhere. -/
theorem walk_eq_ok_iff {parts : List String} {t : Target} :
    d.walk place parts = .ok t ↔ d.Leads place parts t := ⟨leads_of_walk, walk_of_leads⟩

theorem Leads.of_directories (hin : d.DirectoriesIn d') {parts : List String} {t : Target}
    (h : d.Leads place parts t) : d'.Leads place parts t := by
  have hsearch : ∀ {place}, d.Searchable place → d'.Searchable place :=
    fun ⟨access, he, hnone⟩ => ⟨access, hin _ access he, hnone⟩
  induction h with
  | stay => exact .stay
  | slash hdir _ ih =>
      obtain ⟨access, he⟩ := hdir
      exact .slash ⟨access, hin _ access he⟩ ih
  | dot hdir _ ih => exact .dot (hsearch hdir) ih
  | up hdir _ ih => exact .up (hsearch hdir) ih
  | last hdir hname hlast => exact .last (hsearch hdir) hname hlast
  | down hdir hname hmore _ ih => exact .down (hsearch hdir) hname hmore ih

theorem resolve_of_directories (h : d.DirectoriesIn d') {t : Target} (hr : d.resolve path = .ok t) :
    d'.resolve path = .ok t := by
  unfold resolve at hr ⊢
  split at hr
  · exact absurd hr (by simp)
  rename_i hnul
  rw [if_neg hnul]
  split at hr
  · exact absurd hr (by simp)
  rename_i hempty
  rw [if_neg hempty]
  split at hr
  · exact absurd hr (by simp)
  rename_i hlong
  rw [if_neg hlong]
  split at hr
  · exact walk_of_leads ((leads_of_walk hr).of_directories h)
  · exact walk_of_leads ((leads_of_walk hr).of_directories h)

/-! ## Making directories -/

theorem Grown.refl (d : Disk) : Grown d d := ⟨fun _ => Or.inl rfl, rfl⟩

theorem Grown.trans (h : Grown d d') (h' : Grown d' d'') : Grown d d'' := by
  refine ⟨?_, h'.room.trans h.room⟩
  intro place
  rcases h.entries place with he | ⟨hnone, hdir⟩
  · rcases h'.entries place with he' | ⟨hnone', hdir'⟩
    · exact Or.inl (he'.trans he)
    · exact Or.inr ⟨he ▸ hnone', hdir'⟩
  · rcases h'.entries place with he' | ⟨hnone', -⟩
    · exact Or.inr ⟨hnone, he'.trans hdir⟩
    · rw [hdir] at hnone'
      exact absurd hnone' (by simp)

theorem Grown.entryAt? (h : Grown d d') {e : Entry} (he : d.entryAt? place = some e) :
    d'.entryAt? place = some e := by
  rcases h.entries place with heq | ⟨hnone, -⟩
  · exact heq.trans he
  · rw [he] at hnone
    exact absurd hnone (by simp)

theorem Grown.directoriesIn (h : Grown d d') : d.DirectoriesIn d' := fun _ _ he => h.entryAt? he

/-- Files come through unchanged. -/
theorem Grown.fileAt? (h : Grown d d') (place : List String) :
    d'.fileAt? place = d.fileAt? place := by
  unfold Disk.fileAt?
  rcases h.entries place with heq | ⟨hnone, hdir⟩
  · rw [heq]
  · rw [hnone, hdir]

/-- What stands at the end of a path does so at its place. -/
theorem lookup_eq_ok_iff {e : Entry} : d.lookup path = .ok e ↔
    ∃ t, d.resolve path = .ok t ∧ d.entryAt? t.place = some e ∧
      (t.directory = true → ∃ access, e = .directory access) := by
  unfold lookup
  cases hr : d.resolve path with
  | error cause => simp [Except.bind]
  | ok t =>
      simp only [Except.bind, Except.ok.injEq, exists_eq_left']
      cases he : d.entryAt? t.place with
      | none => simp
      | some entry =>
          cases entry with
          | directory access =>
              simp only [Except.ok.injEq, Option.some.injEq]
              exact ⟨fun h => ⟨h, fun _ => ⟨access, h.symm⟩⟩, fun h => h.1⟩
          | file content access =>
              cases t.directory <;> simp +contextual [eq_comm]
          | device content access =>
              cases t.directory <;> simp +contextual [eq_comm]

theorem Grown.lookup (h : Grown d d') {e : Entry} (hl : d.lookup path = .ok e) :
    d'.lookup path = .ok e := by
  obtain ⟨t, hr, he, hdir⟩ := lookup_eq_ok_iff.mp hl
  exact lookup_eq_ok_iff.mpr ⟨t, resolve_of_directories h.directoriesIn hr, h.entryAt? he, hdir⟩

theorem grown_makeDirectory (h : d.makeDirectory path = .ok d') : Grown d d' := by
  obtain ⟨t, hr, h⟩ := ok_of_bind h
  split at h
  · exact absurd h (by simp)
  · rename_i hnone
    cases hrefusal : d.refusalAt t.place with
    | some e =>
        rw [hrefusal] at h
        exact absurd h (by simp)
    | none =>
        rw [hrefusal] at h
        cases h
        refine ⟨?_, rfl⟩
        intro place
        by_cases hp : place = t.place
        · subst hp
          refine Or.inr ⟨hnone, entryAt?_put_self _ ?_⟩
          rintro ⟨access, hdir⟩
          rw [hnone] at hdir
          exact absurd hdir (by simp)
        · exact Or.inl (entryAt?_put_of_ne d _ hp)

/-- **Making directories changes no file**, whether it succeeds or not. -/
theorem grown_makeDirectories (d : Disk) :
    ∀ last : List String, Grown d (d.makeDirectories last).1
  | [] => Grown.refl d
  | name :: outer => by
      have ih := grown_makeDirectories d outer
      rw [makeDirectories]
      split
      · rename_i h
        exact grown_makeDirectory h
      · split
        · rename_i h
          rw [h] at ih
          exact ih
        · rename_i h
          rw [h] at ih
          split
          · rename_i hmade
            exact ih.trans (grown_makeDirectory hmade)
          · split
            · exact ih
            · exact ih
      · split
        · exact Grown.refl d
        · exact Grown.refl d

/-! ## Writing -/

theorem OpensFile.not_directoryAt (h : d.OpensFile path place access) : ¬ d.DirectoryAt place := by
  rintro ⟨other, hdir⟩
  rcases h.entry with ⟨content, he, -⟩ | ⟨he, -, -⟩
  · rw [he] at hdir
    exact absurd hdir (by simp)
  · rw [he] at hdir
    exact absurd hdir (by simp)

theorem OpensFile.openToWrite_eq (h : d.OpensFile path place access) :
    d.openToWrite path = .ok (.file place access) := by
  unfold openToWrite
  rw [h.resolve]
  simp only [Except.bind, Bool.false_eq_true, if_false]
  rcases h.entry with ⟨content, he, hw⟩ | ⟨he, hw, rfl⟩
  · simp only [he, hw, Option.elim_none]
  · simp only [he, hw, Option.elim_none]

/-- **What a path can be opened as**, if opening it is not refused. -/
theorem openToWrite_cases (d : Disk) (path : String) :
    (∃ e, d.openToWrite path = .error e) ∨
    (d.OpensDevice path ∧ d.openToWrite path = .ok .device) ∨
    ∃ place access, d.OpensFile path place access := by
  unfold openToWrite
  cases hr : d.resolve path with
  | error e => exact Or.inl ⟨e, rfl⟩
  | ok t =>
      obtain ⟨target, directory⟩ := t
      cases directory with
      | true => exact Or.inl ⟨_, rfl⟩
      | false =>
          simp only [Except.bind, Bool.false_eq_true, if_false]
          cases he : d.entryAt? target with
          | none =>
              cases hw : d.refusalAt target with
              | some e => exact Or.inl ⟨e, rfl⟩
              | none => exact Or.inr (Or.inr ⟨target, {}, hr, Or.inr ⟨he, hw, rfl⟩⟩)
          | some entry =>
              cases entry with
              | directory _ => exact Or.inl ⟨_, rfl⟩
              | device content access =>
                  cases hw : access.write with
                  | some e => exact Or.inl ⟨e, by simp [hw]⟩
                  | none =>
                      have hlookup := lookup_eq_ok_iff.mpr
                        ⟨⟨target, false⟩, hr, he, fun hdir => absurd hdir (by simp)⟩
                      exact Or.inr (Or.inl ⟨⟨content, access, hlookup, hw⟩, by simp [hw]⟩)
              | file content access =>
                  cases hw : access.write with
                  | some e => exact Or.inl ⟨e, by simp [hw]⟩
                  | none => exact Or.inr (Or.inr ⟨target, access, hr, Or.inl ⟨content, he, hw⟩⟩)

/-- **All that a write can do**: it is refused, or goes to a device, and changes nothing, or it leaves
in one file as much of the content as gets there. -/
theorem write_cases (d : Disk) (path : String) (content : List UInt8) :
    ((∀ place access, ¬ d.OpensFile path place access) ∧
      ∃ e, d.write path content = (d, .error e)) ∨
    (d.OpensDevice path ∧ d.write path content = (d, .ok ())) ∨
    ∃ place access, d.OpensFile path place access ∧
      d.write path content =
        (d.put place (.file (d.taken content).1 access), (d.taken content).2) := by
  unfold write
  rcases d.openToWrite_cases path with ⟨e, h⟩ | ⟨hdevice, h⟩ | ⟨place, access, hopens⟩
  · rw [h]
    refine Or.inl ⟨?_, e, rfl⟩
    intro place access hopens
    rw [hopens.openToWrite_eq] at h
    exact absurd h (by simp)
  · rw [h]
    exact Or.inr (Or.inl ⟨hdevice, rfl⟩)
  · rw [hopens.openToWrite_eq]
    exact Or.inr (Or.inr ⟨place, access, hopens, rfl⟩)

/-- A write that does not break off gets all of the content into the file. -/
theorem taken_of_ok (h : (d.taken content).2 = .ok ()) : (d.taken content).1 = content := by
  unfold taken at h ⊢
  split
  · rfl
  · rename_i hroom
    rw [hroom] at h
    simp only at h ⊢
    split
    · rename_i hshort
      rw [if_pos hshort] at h
      exact absurd h (by simp)
    · rfl

/-- The directories on the way stay where they are, so the path leads to the same place. -/
theorem OpensFile.resolve_put (h : d.OpensFile path place access) (e : Entry) :
    (d.put place e).resolve path = .ok ⟨place, false⟩ := by
  apply resolve_of_directories _ h.resolve
  intro other access' hother
  have hne : other ≠ place := by
    rintro rfl
    exact h.not_directoryAt ⟨access', hother⟩
  rw [entryAt?_put_of_ne d _ hne]
  exact hother

theorem OpensFile.lookup_put (h : d.OpensFile path place access) (content : List UInt8) :
    (d.put place (.file content access)).lookup path = .ok (.file content access) :=
  lookup_eq_ok_iff.mpr
    ⟨⟨place, false⟩, h.resolve_put _, entryAt?_put_self _ h.not_directoryAt, fun hdir => by simp at hdir⟩

end ToolNodes.Disk
