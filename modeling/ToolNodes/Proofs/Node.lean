import ToolNodes.Node
import ToolNodes.Proofs.Text.Trim

/-!
# Nodes in normal form

The normal form of a URL is not normal itself when a blank stands before the slashes that it drops:
that blank is then at the end, and taking the normal form again drops it too. `normalUrl_eq_self_iff`
says that this is the only way.
-/

namespace ToolNodes

open Text

/-! ## URLs -/

theorem toList_normalUrl (url : String) :
    (normalUrl url).toList = dropTail (· = '/') (trim url.toList) := by
  unfold normalUrl
  rw [String.toList_ofList]

theorem normalUrl_prefix_trim (url : String) : (normalUrl url).toList <+: trim url.toList := by
  rw [toList_normalUrl]
  exact dropTail_isPrefix _ _

theorem startsIn_normalUrl (url : String) : startsIn isBlank (normalUrl url).toList = false :=
  startsIn_of_isPrefix (normalUrl_prefix_trim url) (startsIn_trim _)

theorem endsIn_normalUrl (url : String) : endsIn (· = '/') (normalUrl url).toList = false := by
  rw [toList_normalUrl]
  exact endsIn_dropTail _ _

/-- **Which URLs are normal**, among those without a blank in front and a slash at the end. -/
theorem normalUrl_eq_self_iff {url : String} (hs : startsIn isBlank url.toList = false)
    (he : endsIn (· = '/') url.toList = false) :
    normalUrl url = url ↔ endsBlank url = false := by
  constructor
  · intro h
    have hprefix := normalUrl_prefix_trim url
    rw [h, trim_eq_dropTail hs] at hprefix
    have htrim : dropTail isBlank url.toList = url.toList :=
      (dropTail_isPrefix _ _).eq_of_length_le hprefix.length_le
    unfold endsBlank
    rw [← htrim]
    exact endsIn_dropTail _ _
  · intro h
    rw [← String.toList_inj, toList_normalUrl, trim_eq_self hs h, dropTail_eq_self he]

/-- What is kept of a URL that is given: the blanks around it go first, and then the slashes behind
it. -/
def KeptUrl (given kept : List Char) : Prop :=
  ∃ lead slashes trail, given = lead ++ (kept ++ slashes) ++ trail ∧
    (∀ c ∈ lead, isBlank c = true) ∧ (∀ c ∈ trail, isBlank c = true) ∧ (∀ c ∈ slashes, c = '/') ∧
    startsIn isBlank (kept ++ slashes) = false ∧ endsIn isBlank (kept ++ slashes) = false ∧
    endsIn (· = '/') kept = false

/-- **The normal form is what is kept**, and nothing else is. -/
theorem keptUrl_iff {given kept : String} :
    KeptUrl given.toList kept.toList ↔ kept = normalUrl given := by
  constructor
  · rintro ⟨lead, slashes, trail, hgiven, hlead, htrail, hslashes, hstart, hend, hkept⟩
    rw [← String.toList_inj, toList_normalUrl, hgiven, trim_of_parts hlead htrail hstart hend]
    exact (dropTail_append_of_all hkept fun c hc => by simp [hslashes c hc]).symm
  · rintro rfl
    obtain ⟨lead, trail, hgiven, hlead, htrail⟩ := parts_of_trim given.toList
    obtain ⟨slashes, hbody, hslashes⟩ := exists_tail (· = '/') (trim given.toList)
    rw [← toList_normalUrl] at hbody
    refine ⟨lead, slashes, trail, ?_, hlead, htrail, ?_, ?_, ?_, endsIn_normalUrl given⟩
    · rw [← hbody]
      exact hgiven
    · intro c hc
      simpa using hslashes c hc
    · rw [← hbody]
      exact startsIn_trim _
    · rw [← hbody]
      exact endsIn_trim _

/-! ## Tokens -/

theorem normalToken_eq_self {token : Option String}
    (h : ∀ t, token = some t → isBlankText t = false) : normalToken token = token := by
  unfold normalToken
  cases token with
  | none => rfl
  | some t => simp [h t rfl]

theorem isBlankText_of_normalToken {token : Option String} {t : String}
    (h : normalToken token = some t) : isBlankText t = false := by
  unfold normalToken at h
  have := (Option.filter_eq_some_iff.mp h).2
  simpa using this

/-! ## Nodes -/

/-- A node as a registry holds it under a key. -/
structure Node.Sound (key : String) (node : Node) : Prop where
  name_eq : node.name = key
  url_ne : node.url ≠ ""
  url_starts : startsIn isBlank node.url.toList = false
  url_ends : endsIn (· = '/') node.url.toList = false
  token_ne : ∀ t, node.token = some t → isBlankText t = false

/-- A node in normal form is sound unless its URL is empty. -/
theorem Node.sound_normal {key url : String} {token : Option String}
    (h : (normalUrl url).isEmpty = false) : (Node.normal key url token).Sound key where
  name_eq := rfl
  url_ne := by
    intro hempty
    change normalUrl url = "" at hempty
    rw [hempty] at h
    exact absurd h (by decide)
  url_starts := startsIn_normalUrl url
  url_ends := endsIn_normalUrl url
  token_ne := fun _ ht => isBlankText_of_normalToken ht

/-- A sound node is its own normal form unless its URL ends with a blank. -/
theorem Node.Sound.normal_eq {key : String} {node : Node} (h : node.Sound key)
    (hend : endsBlank node.url = false) : Node.normal key node.url node.token = node := by
  obtain ⟨name, url, token⟩ := node
  have hurl := (normalUrl_eq_self_iff h.url_starts h.url_ends).mpr hend
  have htoken := normalToken_eq_self h.token_ne
  have hname := h.name_eq
  unfold Node.normal
  simp only at hurl htoken hname ⊢
  rw [hurl, htoken, hname]

end ToolNodes
