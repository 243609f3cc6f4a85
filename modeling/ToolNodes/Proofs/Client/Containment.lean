import Mathlib.Control.Monad.Basic
import ToolNodes.Proofs.Client.Request
import ToolNodes.Proofs.Url.Segments

/-!
# Requests stay behind the URL of their node

Whatever the name of a tool is, its call goes to the scheme, the authority and the query of the node's
URL, and to a path behind that of the node. The name ends up in one segment at most, which holds nothing
that could end it (`behind_node_url`). Of the node's own path one empty segment at the end goes; and
where a single empty segment is left of two, it goes as well (`not_always_behind`).
-/

namespace ToolNodes

namespace Url

theorem Authority.host_bare (a : Authority) : a.bare.host = a.host := by
  unfold bare
  split
  · rfl
  · rfl

theorem Authority.port_bare (a : Authority) : a.bare.port = a.port := by
  unfold bare
  split
  · rfl
  · rfl

/-- Of an authority without credentials nothing is left out. -/
theorem Authority.bare_of_no_credentials {a : Authority} (h : a.credentials? = none) :
    a.bare = a := by
  unfold bare
  rw [h]
  rfl

/-- The text of a URL with an authority and segments, its fragment aside. -/
theorem text_withoutFragment {url : Url} {a : Authority} {segments : List (List Char)}
    (ha : url.authority = some a) (hpath : url.path = .segments segments) :
    url.withoutFragment.text =
      url.scheme ++ [':', '/', '/'] ++ a.text ++ segments.flatMap ('/' :: ·) ++
        url.query.elim [] ('?' :: ·) := by
  unfold text withoutFragment
  simp only [ha, hpath, Path.text]
  cases url.query with
  | none => simp
  | some q => simp

end Url

namespace Operation

open Client Url

variable {op : Operation} {node : Node} {base : Url}

/-- The segments that an operation adds to the path of a URL with a special scheme. -/
def added : Operation → List (List Char)
  | listTools => [toolsSegment]
  | invoke tool _ => toolSegments true tool.toList

theorem contained_added (op : Operation) : ∀ s ∈ op.added, Contained s := by
  cases op with
  | listTools =>
      intro s hs
      rw [List.mem_singleton.mp hs]
      exact contained_toolsSegment
  | invoke tool envelope => exact contained_toolSegments tool.toList

theorem added_ne_nil (op : Operation) : op.added ≠ [] := by
  cases op with
  | listTools => exact List.cons_ne_nil _ _
  | invoke tool envelope =>
      show toolSegments true tool.toList ≠ []
      unfold toolSegments
      simp only
      split
      · exact List.cons_ne_nil _ _
      · split
        · exact List.cons_ne_nil _ _
        · exact List.cons_ne_nil _ _

/-- A tool name that fits is no dot segment as it stands. -/
theorem not_dots_of_fits {tool : String} {envelope : Envelope} (h : (invoke tool envelope).ToolFits) :
    ¬ (tool.toList = ['.'] ∨ tool.toList = ['.', '.']) := by
  rw [toolFits_invoke_iff] at h
  rintro (hdot | hdots)
  · obtain rfl : tool = "." := String.toList_inj.mp hdot
    exact h (by decide)
  · obtain rfl : tool = ".." := String.toList_inj.mp hdots
    exact h (by decide)

/-- Adding its segments is all that an operation does to the URL of a node. -/
theorem extend_segments (hfits : op.ToolFits) (hspecial : isSpecial base.scheme = true)
    {segments : List (List Char)} (hpath : base.path = .segments segments) :
    base.extend? (op.segments.map String.toList) =
      some { base with path := .segments (front segments ++ op.added) } := by
  have htools : "tools".toList = toolsSegment := rfl
  unfold extend?
  rw [hpath, hspecial]
  cases op with
  | listTools =>
      simp only [Operation.segments, List.map_cons, List.map_nil, List.foldl_cons, List.foldl_nil,
        htools, push_tools]
      rfl
  | invoke tool envelope =>
      simp only [Operation.segments, List.map_cons, List.map_nil, List.foldl_cons, List.foldl_nil,
        htools, push_tools, push_tool _ (not_dots_of_fits hfits)]
      rfl

theorem front_eq {segments : List (List Char)} (h : segments ≠ [[], []]) :
    front segments = withoutLastEmpty segments := by
  unfold front
  rw [if_neg]
  intro hempty
  unfold withoutLastEmpty at hempty
  split at hempty
  · rename_i hlast
    obtain ⟨init, hinit⟩ := List.getLast?_eq_some_iff.mp hlast
    rw [hinit, List.dropLast_concat] at hempty
    rw [hempty] at hinit
    exact h hinit
  · rename_i hlast
    rw [hempty] at hlast
    exact hlast rfl

/-- **A request stays behind the URL of its node.** For a node whose URL is read with the scheme `http` or
`https`, and an operation whose tool has any name that fits, the endpoint has the scheme, the authority,
the query and the fragment of that URL, and its path is the path of that URL with the segments of the
operation behind it: one empty segment at the end is dropped first, and so is a single empty segment
that this leaves. No segment holds what could end it or the path, the text that is sent is made of just
these parts, credentials aside, which go into a header, and no other request is made. -/
theorem behind_node_url [Idna] (hparse : Url.parse node.url = .ok base)
    (hscheme : sendable base.scheme = true) (hfits : op.ToolFits) :
    ∃ (a : Authority) (segments : List (List Char)) (url : Url),
      base.authority = some a ∧ base.path = .segments segments ∧
      endpoint node op.segments = .ok url ∧
      url.scheme = base.scheme ∧ url.authority = base.authority ∧ url.query = base.query ∧
      url.fragment = base.fragment ∧
      url.path = .segments (front segments ++ op.added) ∧
      (segments ≠ [[], []] → front segments = withoutLastEmpty segments) ∧
      op.added ≠ [] ∧ (∀ s ∈ front segments ++ op.added, Contained s) ∧
      a.bare.host = a.host ∧ a.bare.port = a.port ∧ (a.credentials? = none → a.bare = a) ∧
      (op.request node url).url.text =
        base.scheme ++ [':', '/', '/'] ++ a.bare.text ++
          (front segments ++ op.added).flatMap ('/' :: ·) ++ base.query.elim [] ('?' :: ·) ∧
      ∀ peer, (op.performAt node peer).peer = peer ∨
        (op.performAt node peer).peer = (peer.send (op.request node url)).1 := by
  obtain ⟨hspecial, hfile⟩ := special_of_sendable hscheme
  obtain ⟨a, segments, ha, hpath, hcontained⟩ := segments_of_parse hparse hspecial hfile
  have hextend := extend_segments hfits hspecial hpath
  have hendpoint := endpoint_of_extend hparse hextend
  refine ⟨a, segments, _, ha, hpath, hendpoint, rfl, rfl, rfl, rfl, rfl, front_eq,
    added_ne_nil op, ?_, a.host_bare, a.port_bare, Authority.bare_of_no_credentials, ?_, ?_⟩
  · intro s hs
    rcases List.mem_append.mp hs with hs | hs
    · exact hcontained s (mem_of_mem_front hs)
    · exact contained_added op s hs
  · apply text_withoutFragment
    · exact congrArg (Option.map Authority.bare) ha
    · rfl
  · intro peer
    rcases performAt_sends hfits node peer with hkept | ⟨url, hurl, hsent⟩
    · exact Or.inl hkept
    · rw [hendpoint] at hurl
      rw [Except.ok.inj hurl]
      exact Or.inr hsent

/-- A tool that is named like a way out of the path, with a query and a fragment, is one segment. -/
theorem behind_node_url_of_way_out :
    let _ : Idna := .ascii
    let node : Node := ⟨"a", "http://h/a/?q#f", none⟩
    let op := invoke "../x?y#z" ⟨.null, none⟩
    ∃ url, endpoint node op.segments = .ok url ∧
      (op.request node url).url.toString = "http://h/a/tools/..%2Fx%3Fy%23z?q" := by
  intro _ node op
  let base : Url :=
    ⟨"http".toList, some ⟨[], ['h'], none⟩, .segments [['a'], []], some ['q'], some ['f']⟩
  have hparse : Url.parse node.url = .ok base := by decide +kernel
  have hfits : op.ToolFits := toolFits_invoke_iff.mpr (by decide)
  obtain ⟨a, segments, url, ha, hpath, hendpoint, -, -, -, -, -, -, -, -, -, -, -, htext, -⟩ :=
    behind_node_url hparse (by decide) hfits
  refine ⟨url, hendpoint, ?_⟩
  unfold Url.toString
  rw [htext]
  obtain rfl : [['a'], []] = segments := Path.segments.inj hpath
  obtain rfl : (⟨[], ['h'], none⟩ : Authority) = a := Option.some.inj ha
  decide +kernel

/-- A request does not keep all of its node's path when that is two slashes before a query: with one
empty segment dropped there is another one left, in the place of which the segments of the operation
are put. -/
theorem not_always_behind :
    ¬ ∀ [Idna] (node : Node) (base url : Url) (segments : List (List Char)) (op : Operation),
      Url.parse node.url = .ok base → sendable base.scheme = true → op.ToolFits →
        base.path = .segments segments → endpoint node op.segments = .ok url →
          ∃ rest, url.path = .segments (withoutLastEmpty segments ++ rest) := by
  intro hall
  let _ : Idna := .ascii
  let node : Node := ⟨"a", "http://h//?q", none⟩
  let base : Url := ⟨"http".toList, some ⟨[], ['h'], none⟩, .segments [[], []], some ['q'], none⟩
  let url : Url := { base with path := .segments [toolsSegment, ['t']] }
  have hparse : Url.parse node.url = .ok base := by decide +kernel
  have hfits : (invoke "t" ⟨.object [], none⟩).ToolFits := toolFits_invoke_iff.mpr (by decide)
  have hendpoint : endpoint node (invoke "t" ⟨.object [], none⟩).segments = .ok url := by
    exact endpoint_of_extend hparse (by decide +kernel)
  obtain ⟨rest, hrest⟩ := hall node base url _ _ hparse (by decide) hfits rfl hendpoint
  have hsegments : [toolsSegment, ['t']] = [] :: rest := Path.segments.inj hrest
  exact absurd (List.cons.inj hsegments).1 (by decide)

end Operation

end ToolNodes
