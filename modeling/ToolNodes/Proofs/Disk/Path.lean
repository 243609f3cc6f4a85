import ToolNodes.Proofs.Disk
import ToolNodes.Proofs.Text.Words

/-!
# The directories on a path

Making the directories of a path asks for each of them by a path of its own, put together of the
components that lead to it. Walking that path is walking part of the whole one, since the parts that are
no components lead nowhere. So where a path leads to the place of a file all its directories are there,
and where they cannot be made it leads to none (`resolve_ne_of_makeDirectories`).
-/

namespace ToolNodes

open Text

variable {path c : String} {parts : List String}

/-! ## Parts and components -/

/-- Joined parts come apart again. -/
theorem pathParts_intercalate (hne : parts ≠ []) (h : ∀ c ∈ parts, '/' ∉ c.toList) :
    pathParts ("/".intercalate parts) = parts := by
  have hslash : ∀ piece ∈ parts.map String.toList, '/' ∉ piece := by
    intro piece hpiece
    obtain ⟨c, hc, rfl⟩ := List.mem_map.mp hpiece
    exact h c hc
  have hsplit : splitOn (· = '/') ("/".intercalate parts).toList = parts.map String.toList := by
    rw [String.toList_intercalate]
    exact splitOn_intercalate '/' hslash (by simpa using hne)
  unfold pathParts
  rw [hsplit, List.map_map]
  simp [Function.comp_def]

theorem toList_eq_intercalate (path : String) :
    path.toList = ['/'].intercalate ((pathParts path).map String.toList) := by
  unfold pathParts
  rw [List.map_map]
  simp only [Function.comp_def, String.toList_ofList, List.map_id']
  exact (intercalate_splitOn '/' path.toList).symm

/-- No part has a slash in it. -/
theorem slash_not_mem_of_mem_pathParts (h : c ∈ pathParts path) : '/' ∉ c.toList := by
  unfold pathParts at h
  obtain ⟨piece, hpiece, rfl⟩ := List.mem_map.mp h
  intro hslash
  rw [String.toList_ofList] at hslash
  exact absurd (none_of_mem_splitOn hpiece hslash) (by simp)

/-- Whether a part behind the first is a component. -/
def isComponent (c : String) : Bool := c ≠ "" && c ≠ "."

/-- What stands at the front of the first part and some of the others, but is not all of them, is the
first with those of a front of the others. -/
theorem exists_part_of_prefix {α : Type} {p : α → Bool} {first : α} {rest above : List α}
    (hne : above ≠ []) (h : above <+: (first :: rest.filter p).dropLast) :
    ∃ xs ys, ys ≠ [] ∧ rest = xs ++ ys ∧ above = first :: xs.filter p := by
  cases above with
  | nil => exact absurd rfl hne
  | cons a above =>
      have hrest : rest.filter p ≠ [] := by
        intro hnil
        rw [hnil] at h
        exact absurd (List.prefix_nil.mp h) (by simp)
      rw [List.dropLast_cons_of_ne_nil hrest, List.cons_prefix_cons] at h
      obtain ⟨rfl, habove⟩ := h
      obtain ⟨xs, ⟨ys, hys⟩, hxs⟩ :=
        List.prefix_filter_iff.mp (habove.trans (List.dropLast_prefix _))
      refine ⟨xs, ys, ?_, hys.symm, by rw [hxs]⟩
      rintro rfl
      rw [List.append_nil] at hys
      rw [hxs, hys] at habove
      have hle := habove.length_le
      have hpos := List.length_pos_iff.mpr hrest
      rw [List.length_dropLast] at hle
      omega

theorem exists_components (h : path ≠ "") :
    ∃ first rest, pathParts path = first :: rest ∧
      pathComponents path = first :: rest.filter isComponent := by
  cases hparts : pathParts path with
  | nil => exact absurd (List.map_eq_nil_iff.mp hparts) (splitOn_ne_nil _ _)
  | cons first rest =>
      refine ⟨first, rest, rfl, ?_⟩
      unfold pathComponents
      rw [hparts]
      simp only [if_neg h]
      split
      · rename_i hfirst
        rw [hfirst]
        rfl
      · rfl

/-! ## Parts of a path as paths -/

theorem intercalate_sublist {α : Type} {x : α} {xs ys : List (List α)} (h : xs.Sublist ys) :
    ([x].intercalate xs).Sublist ([x].intercalate ys) := by
  induction h with
  | slnil => exact List.Sublist.refl _
  | @cons xs ys y h ih =>
      cases ys with
      | nil =>
          rw [List.sublist_nil.mp h]
          exact List.nil_sublist _
      | cons z ys =>
          rw [List.intercalate_cons_cons]
          exact ih.trans (List.sublist_append_right _ _)
  | @cons_cons xs ys y h ih =>
      cases xs with
      | nil =>
          rw [List.intercalate_singleton]
          cases ys with
          | nil => rw [List.intercalate_singleton]
          | cons z ys =>
              rw [List.intercalate_cons_cons, List.append_assoc]
              exact List.sublist_append_left _ _
      | cons z xs =>
          have hys : ys ≠ [] := by
            rintro rfl
            exact absurd (List.sublist_nil.mp h) (by simp)
          rw [List.intercalate_cons_cons, List.intercalate_cons_of_ne_nil hys]
          exact (List.Sublist.refl _).append ih

namespace Disk

variable {d d' : Disk} {place : List String} {first : String} {rest kept : List String} {t : Target}

/-- A path that can be walked on a disk. -/
structure Walkable (path : String) : Prop where
  no_nul : '\x00' ∉ path.toList
  ne : path ≠ ""
  size_le : path.utf8ByteSize ≤ maxPath

theorem walkable_of_resolve (h : d.resolve path = .ok t) : Walkable path := by
  unfold resolve at h
  split at h
  · exact absurd h (by simp)
  rename_i hnul
  split at h
  · exact absurd h (by simp)
  rename_i hempty
  split at h
  · exact absurd h (by simp)
  rename_i hlong
  exact ⟨by simpa using hnul, hempty, Nat.le_of_not_lt hlong⟩

/-- A path starts at the root if its first part is empty, and else at the working directory. -/
theorem resolve_of_walkable (h : Walkable path) (hparts : pathParts path = first :: rest) (d : Disk) :
    d.resolve path = if first = "" then d.walk [""] rest else d.walk [] (first :: rest) := by
  unfold resolve
  rw [if_neg (by simpa using h.no_nul), if_neg h.ne, if_neg (Nat.not_lt.mpr h.size_le), hparts]
  split
  · rename_i heq
    obtain ⟨rfl, rfl⟩ := List.cons.inj heq
    rw [if_pos rfl]
  · rename_i hfirst
    rw [if_neg]
    rintro rfl
    exact hfirst rest rfl

/-- The path of the first part and some others is written with letters of the whole path. -/
theorem pathOf_sublist (hpath : path ≠ "") (hparts : pathParts path = first :: rest)
    (hkept : kept.Sublist rest) : (pathOf (first :: kept)).toList.Sublist path.toList := by
  rw [toList_eq_intercalate path, hparts, List.map_cons]
  unfold pathOf
  split
  · rename_i hroot
    obtain ⟨rfl, -⟩ := List.cons.inj hroot
    have hrest : rest ≠ [] := by
      rintro rfl
      have hempty := toList_eq_intercalate path
      rw [hparts] at hempty
      exact hpath (String.toList_inj.mp hempty)
    rw [List.intercalate_cons_of_ne_nil (by simpa using hrest)]
    exact List.sublist_append_left _ _
  · rw [String.toList_intercalate]
    exact intercalate_sublist ((hkept.map String.toList).cons_cons first.toList)

theorem Walkable.pathOf (h : Walkable path) (hparts : pathParts path = first :: rest)
    (hkept : kept.Sublist rest) : Walkable (pathOf (first :: kept)) where
  no_nul := fun hmem => h.no_nul ((pathOf_sublist h.ne hparts hkept).subset hmem)
  ne := by
    unfold Disk.pathOf
    split
    · decide
    · rename_i hroot
      intro hempty
      rw [← String.toList_inj, String.toList_intercalate] at hempty
      cases kept with
      | nil =>
          rw [List.map_singleton, List.intercalate_singleton] at hempty
          exact hroot (by rw [String.toList_inj.mp (hempty : first.toList = "".toList)])
      | cons c kept =>
          rw [List.map_cons, List.map_cons, List.intercalate_cons_cons] at hempty
          exact absurd hempty (by simp)
  size_le := by
    have hle := utf8Length_le_of_sublist (pathOf_sublist h.ne hparts hkept)
    rw [← utf8ByteSize_ofList, ← utf8ByteSize_ofList, String.ofList_toList, String.ofList_toList]
      at hle
    exact hle.trans h.size_le

/-- It is walked part by part. -/
theorem resolve_pathOf (h : Walkable path) (hparts : pathParts path = first :: rest)
    (hkept : kept.Sublist rest) (d : Disk) :
    d.resolve (pathOf (first :: kept)) =
      if first = "" then d.walk [""] kept else d.walk [] (first :: kept) := by
  have hwalkable := h.pathOf hparts hkept
  by_cases hroot : first :: kept = [""]
  · obtain ⟨rfl, rfl⟩ := List.cons.inj hroot
    rw [resolve_of_walkable hwalkable (by decide : pathParts "/" = ["", ""]), if_pos rfl, if_pos rfl,
      walk]
    rfl
  · refine resolve_of_walkable hwalkable ?_ d
    unfold Disk.pathOf
    rw [if_neg hroot]
    apply pathParts_intercalate (List.cons_ne_nil _ _)
    intro c hc
    have hmem : c ∈ pathParts path := by
      rw [hparts]
      exact (hkept.cons_cons first).subset hc
    exact slash_not_mem_of_mem_pathParts hmem

/-! ## Walking part of a path -/

theorem Leads.directoryAt {c : String} (h : d.Leads place (c :: rest) t) : d.DirectoryAt place := by
  have hsearch : d.Searchable place → d.DirectoryAt place := fun ⟨access, he, _⟩ => ⟨access, he⟩
  cases h with
  | slash hdir _ => exact hdir
  | dot hdir _ => exact hsearch hdir
  | up hdir _ => exact hsearch hdir
  | last hdir _ _ => exact hsearch hdir
  | down hdir _ _ _ => exact hsearch hdir

theorem Leads.of_dot {c : String} (h : d.Leads place (c :: rest) t) (hc : c = ".") :
    d.Searchable place ∧ d.Leads place rest t := by
  cases h with
  | slash _ _ => exact absurd hc (by decide)
  | dot hdir h => exact ⟨hdir, h⟩
  | up _ _ => exact absurd hc (by decide)
  | last _ hname _ => exact absurd hc hname.ne_dot
  | down _ hname _ _ => exact absurd hc hname.ne_dot

/-- A walk that leads to the place of a file comes by a directory after each of its parts, and the
components alone lead there as well. -/
theorem leads_components {xs ys : List String} (hys : ys ≠ []) (h : d.Leads place (xs ++ ys) t)
    (ht : t.directory = false) :
    ∃ way, d.Leads place (xs.filter isComponent) way ∧ d.DirectoryAt way.place := by
  induction xs generalizing place with
  | nil =>
      obtain ⟨c, ys, rfl⟩ := List.exists_cons_of_ne_nil hys
      exact ⟨⟨place, true⟩, .stay, h.directoryAt⟩
  | cons c xs ih =>
      rw [List.cons_append] at h
      cases h with
      | slash _ hrest => exact ih hrest
      | dot _ hrest => exact ih hrest
      | up hdir hrest =>
          obtain ⟨way, hway, hat⟩ := ih hrest
          exact ⟨way, .up hdir hway, hat⟩
      | last hdir hname hlast => exact absurd ht (by simp [hys])
      | down hdir hname hmore hrest =>
          obtain ⟨way, hway, hat⟩ := ih hrest
          rw [List.filter_cons_of_pos (by simp [isComponent, hname.ne, hname.ne_dot])]
          cases hlast : (xs.filter isComponent).all String.isEmpty with
          | false => exact ⟨way, .down hdir hname hlast hway, hat⟩
          | true =>
              have hnil : xs.filter isComponent = [] := by
                apply List.eq_nil_iff_forall_not_mem.mpr
                intro x hx
                have hempty : x = "" := by simpa using List.all_eq_true.mp hlast x hx
                have hcomponent := (List.mem_filter.mp hx).2
                rw [hempty] at hcomponent
                exact absurd hcomponent (by decide)
              rw [hnil] at hway ⊢
              cases hway
              exact ⟨_, .last hdir hname rfl, hat⟩

/-- Where a path leads to a file, it names no directory. -/
theorem resolve_of_lookup_file {content : List UInt8} {access : Access}
    (h : d.lookup path = .ok (.file content access)) :
    ∃ target, d.resolve path = .ok ⟨target, false⟩ ∧
      d.entryAt? target = some (.file content access) := by
  obtain ⟨⟨place, directory⟩, hr, he, hdirectory⟩ := lookup_eq_ok_iff.mp h
  cases directory with
  | false => exact ⟨place, hr, he⟩
  | true =>
      obtain ⟨other, hother⟩ := hdirectory rfl
      exact absurd hother (by simp)

/-- **The directories of a path to the place of a file are there**: each path that is made of the first
components leads to one. -/
theorem isDirectory_of_resolve {target : List String} (hr : d.resolve path = .ok ⟨target, false⟩)
    {above : List String} (hne : above ≠ []) (habove : above <+: (pathComponents path).dropLast) :
    d.isDirectory (pathOf above) = true := by
  have hwalkable := walkable_of_resolve hr
  obtain ⟨first, rest, hparts, hcomponents⟩ := exists_components hwalkable.ne
  rw [hcomponents] at habove
  obtain ⟨xs, ys, hys, hrest, rfl⟩ := exists_part_of_prefix hne habove
  have hsublist : (xs.filter isComponent).Sublist rest := by
    rw [hrest]
    exact List.filter_sublist.trans (List.sublist_append_left _ _)
  obtain ⟨way, hway, access', hentry⟩ : ∃ way,
      d.resolve (pathOf (first :: xs.filter isComponent)) = .ok way ∧ d.DirectoryAt way.place := by
    rw [resolve_pathOf hwalkable hparts hsublist]
    rw [resolve_of_walkable hwalkable hparts, hrest] at hr
    split at hr
    · rename_i hroot
      rw [if_pos hroot]
      obtain ⟨way, hway, hat⟩ := leads_components hys (leads_of_walk hr) rfl
      exact ⟨way, walk_of_leads hway, hat⟩
    · rename_i hroot
      rw [if_neg hroot]
      by_cases hdot : first = "."
      · subst hdot
        obtain ⟨hdir, hleads⟩ := (leads_of_walk hr).of_dot rfl
        obtain ⟨way, hway, hat⟩ := leads_components hys hleads rfl
        exact ⟨way, walk_of_leads (.dot hdir hway), hat⟩
      · rw [← List.cons_append] at hr
        obtain ⟨way, hway, hat⟩ := leads_components hys (leads_of_walk hr) rfl
        rw [List.filter_cons_of_pos (by simp [isComponent, hroot, hdot])] at hway
        exact ⟨way, walk_of_leads hway, hat⟩
  unfold isDirectory
  rw [lookup_eq_ok_iff.mpr ⟨way, hway, hentry, fun _ => ⟨access', rfl⟩⟩]

/-! ## Directories that cannot be made -/

/-- Making directories fails at one that is not there afterwards. -/
theorem not_isDirectory_of_makeDirectories :
    ∀ {last : List String} {d' : Disk} {e : DiskError}, d.makeDirectories last = (d', .error e) →
      ∃ inner, inner <:+ last ∧ inner ≠ [] ∧ d'.isDirectory (pathOf inner.reverse) = false
  | [], _, _, h => absurd h (by simp [makeDirectories])
  | name :: outer, _, _, h => by
      rw [makeDirectories] at h
      split at h
      · exact absurd h (by simp)
      · split at h
        · rename_i houter
          obtain ⟨inner, hinner, hne, hnot⟩ := not_isDirectory_of_makeDirectories houter
          cases h
          exact ⟨inner, hinner.trans (List.suffix_cons _ _), hne, hnot⟩
        · split at h
          · exact absurd h (by simp)
          · split at h
            · exact absurd h (by simp)
            · rename_i hnot
              cases h
              exact ⟨_, List.suffix_refl _, List.cons_ne_nil _ _, by simpa using hnot⟩
      · split at h
        · exact absurd h (by simp)
        · rename_i hnot
          cases h
          exact ⟨_, List.suffix_refl _, List.cons_ne_nil _ _, by simpa using hnot⟩

/-- **A path leads to no place for a file when its directories cannot be made**, not even when some
have been. -/
theorem resolve_ne_of_makeDirectories {e : DiskError}
    (h : d.makeDirectories (pathComponents path).reverse.tail = (d', .error e))
    (target : List String) : d'.resolve path ≠ .ok ⟨target, false⟩ := by
  intro hr
  obtain ⟨inner, hinner, hne, hnot⟩ := not_isDirectory_of_makeDirectories h
  rw [List.tail_reverse] at hinner
  have habove : inner.reverse <+: (pathComponents path).dropLast := by
    rw [← List.reverse_suffix, List.reverse_reverse]
    exact hinner
  rw [isDirectory_of_resolve hr (by simpa using hne) habove] at hnot
  exact Bool.noConfusion hnot

/-- A file that may be written is opened. -/
theorem opensFile_of_lookup {content : List UInt8} {access : Access}
    (h : d.lookup path = .ok (.file content access)) (hwrite : access.write = none) :
    ∃ place, d.OpensFile path place access := by
  obtain ⟨place, hr, he⟩ := resolve_of_lookup_file h
  exact ⟨place, hr, Or.inl ⟨content, he, hwrite⟩⟩

end Disk

end ToolNodes
