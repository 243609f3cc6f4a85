import Mathlib.Logic.Basic
import ToolNodes.Proofs.Basic
import ToolNodes.Url.Parse

/-!
# URLs that have a host

A URL with a special scheme, files aside, is read as an authority and what follows it, and the host of
that authority is not empty (`host?_of_parse`). So a request can always be addressed to it.
-/

namespace ToolNodes.Url

variable {scheme s : List Char} {url : Url}

theorem scheme_of_extend {base : Url} {added : List (List Char)} (h : base.extend? added = some url) :
    url.scheme = base.scheme ∧ url.host? = base.host? := by
  unfold extend? at h
  split at h
  · exact absurd h (by simp)
  · cases h
    exact ⟨rfl, rfl⟩

/-! ## Hosts -/

theorem Host.bracketed_ne_nil {host : List Char} (h : Host.bracketed s = .ok host) : host ≠ [] := by
  unfold Host.bracketed at h
  split at h
  · split at h
    · cases h
      exact List.cons_ne_nil _ _
    · exact absurd h (by simp)
  · exact absurd h (by simp)

variable [Idna]

theorem Host.parse_ne_nil {host : List Char} (h : Host.parse s = .ok host) : host ≠ [] := by
  unfold Host.parse at h
  split at h
  · exact Host.bracketed_ne_nil h
  · split at h
    · exact absurd h (by simp)
    · rename_i name _
      split at h
      · exact absurd h (by simp)
      · split at h
        · exact absurd h (by simp)
        · rename_i hname
          split at h
          · split at h
            · cases h
              unfold Host.ipv4Text
              simp
            · exact absurd h (by simp)
          · cases h
            intro hnil
            rw [hnil] at hname
            exact hname rfl

/-! ## Authorities -/

theorem authorityOf_host_ne_nil {a : Authority} (hs : isSpecial scheme = true)
    (h : authorityOf scheme s = .ok a) : a.host ≠ [] := by
  unfold authorityOf at h
  simp only [hs, Bool.true_or, Bool.and_true, if_true] at h
  split at h
  · exact absurd h (by simp)
  · obtain ⟨host, hhost, h⟩ := ok_of_bind h
    obtain ⟨number, -, h⟩ := ok_of_bind h
    cases h
    exact Host.parse_ne_nil hhost

theorem withAuthority_cases (h : withAuthority scheme s = .ok url) :
    url.scheme = scheme ∧ ∃ text a, authorityOf scheme text = .ok a ∧ url.authority = some a := by
  unfold withAuthority at h
  obtain ⟨a, ha, h⟩ := ok_of_bind h
  cases h
  exact ⟨rfl, _, a, ha, rfl⟩

/-! ## URLs -/

theorem fileUrl_scheme (h : fileUrl s = .ok url) : url.scheme = fileScheme := by
  unfold fileUrl at h
  dsimp only at h
  -- Whatever the text splits into, a host is read or left empty, and then the URL is made.
  rcases ite_eq_iff.mp h with ⟨-, h⟩ | ⟨-, h⟩
  · cases h
    rfl
  · obtain ⟨host, -, h⟩ := ok_of_bind h
    cases h
    rfl

theorem otherUrl_scheme (h : otherUrl scheme s = .ok url) : url.scheme = scheme := by
  unfold otherUrl at h
  split at h
  · exact (withAuthority_cases h).1
  · cases h
    rfl
  · cases h
    rfl

/-- **A URL with a special scheme other than that of files has a host.** -/
theorem host?_of_parse {text : String} (h : parse text = .ok url) (hs : isSpecial url.scheme = true)
    (hf : url.scheme ≠ fileScheme) : ∃ host, url.host? = some host := by
  unfold parse at h
  split at h
  · exact absurd h (by simp)
  · rename_i scheme rest _
    split at h
    · exact absurd (fileUrl_scheme h) hf
    · split at h
      · rename_i hspecial
        obtain ⟨-, rest, a, ha, hauthority⟩ := withAuthority_cases h
        have hne := authorityOf_host_ne_nil hspecial ha
        refine ⟨a.host, ?_⟩
        unfold host?
        rw [hauthority]
        simp [hne]
      · rename_i hspecial
        rw [otherUrl_scheme h] at hs
        exact absurd hs hspecial

end ToolNodes.Url
