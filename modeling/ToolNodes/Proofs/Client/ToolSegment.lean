import ToolNodes.Proofs.Client.Containment
import ToolNodes.Proofs.Url.Percent

/-!
# The segment of a tool

A call of a tool goes one segment below the list of tools, and the segment decodes to the name of the tool
(`Url.OneBelow`). Segments hold no slash, so two URLs that differ in their segments differ in their texts
(`Url.segments_of_sent`): such a call comes neither to the list nor to what is around it, and the calls of
two tools never come to one place. All this holds of a tool name exactly if it has no tab and no line
break (`one_below_iff_intact`): these are dropped when the segment is added, after the name has been
checked.
-/

namespace ToolNodes

namespace Url

/-! ## Texts of paths -/

theorem takeWhile_segment {segment : List Char} (h : Contained segment) (rest : List (List Char)) :
    (segment ++ rest.flatMap ('/' :: ·)).takeWhile (· ≠ '/') = segment := by
  have hsegment : ∀ c ∈ segment, decide (c ≠ '/') = true := by
    intro c hc
    rw [decide_eq_true_eq]
    rintro rfl
    exact h _ hc List.mem_cons_self
  rw [List.takeWhile_append_of_pos hsegment]
  cases rest with
  | nil => exact List.append_nil _
  | cons next rest => exact List.append_nil _

/-- Segments that hold no slash can be told apart in a text. -/
theorem flatMap_slash_injective {xs ys : List (List Char)} (hxs : ∀ s ∈ xs, Contained s)
    (hys : ∀ s ∈ ys, Contained s) (h : xs.flatMap ('/' :: ·) = ys.flatMap ('/' :: ·)) : xs = ys := by
  induction xs generalizing ys with
  | nil =>
      cases ys with
      | nil => rfl
      | cons y ys => exact absurd h (by simp)
  | cons x xs ih =>
      cases ys with
      | nil => exact absurd h (by simp)
      | cons y ys =>
          have hbehind : x ++ xs.flatMap ('/' :: ·) = y ++ ys.flatMap ('/' :: ·) := List.cons.inj h |>.2
          have hhead := congrArg (List.takeWhile (· ≠ '/')) hbehind
          rw [takeWhile_segment (hxs x List.mem_cons_self),
            takeWhile_segment (hys y List.mem_cons_self)] at hhead
          rw [hhead] at hbehind ⊢
          rw [ih (fun s hs => hxs s (List.mem_cons_of_mem _ hs))
            (fun s hs => hys s (List.mem_cons_of_mem _ hs)) (List.append_cancel_left hbehind)]

def withSegments (u : Url) (segments : List (List Char)) : Url := { u with path := .segments segments }

def sent (u : Url) : String := u.bare.withoutFragment.toString

/-- What is sent of a URL with an authority tells its segments. -/
theorem segments_of_sent {u : Url} {a : Authority} (ha : u.authority = some a)
    {xs ys : List (List Char)} (hxs : ∀ s ∈ xs, Contained s) (hys : ∀ s ∈ ys, Contained s)
    (h : (u.withSegments xs).sent = (u.withSegments ys).sent) : xs = ys := by
  apply flatMap_slash_injective hxs hys
  have htext : (u.withSegments xs).bare.withoutFragment.text =
      (u.withSegments ys).bare.withoutFragment.text := String.ofList_injective h
  have hax : (u.withSegments xs).bare.authority = some a.bare :=
    congrArg (Option.map Authority.bare) ha
  have hay : (u.withSegments ys).bare.authority = some a.bare :=
    congrArg (Option.map Authority.bare) ha
  rw [text_withoutFragment hax rfl, text_withoutFragment hay rfl] at htext
  exact List.append_cancel_left (List.append_cancel_right htext)

/-! ## One segment below -/

/-- A URL is another one with one further segment, which is not empty, holds nothing that could end it and
decodes to the name of a tool. -/
def OneBelow (tool : String) (list url : Url) : Prop :=
  ∃ segments segment, list.path = .segments segments ∧
    url = list.withSegments (segments ++ [segment]) ∧
    segment ≠ [] ∧ Contained segment ∧ percentDecode segment = Text.Utf8.encode tool

/-- The URLs around one: itself and the one above it, each also with a slash behind it. -/
def around (u : Url) : List Url :=
  match u.path with
  | .rootless _ => [u]
  | .segments segments =>
    [segments, segments ++ [[]], segments.dropLast, segments.dropLast ++ [[]]].map u.withSegments

/-- No character of a tool name is dropped when it is added to a URL. -/
def Intact (tool : String) : Prop := ∀ c ∈ tool.toList, isDropped c = false

instance (tool : String) : Decidable (Intact tool) :=
  List.decidableBAll (fun c => isDropped c = false) tool.toList

theorem segment_set_percent (special : Bool) : EncodeSet.segment special '%' = true := by
  cases special <;> rfl

theorem toolSegments_of_intact {tool : String} (hintact : Intact tool) (special : Bool)
    (hdots : ¬ (tool.toList = ['.'] ∨ tool.toList = ['.', '.'])) :
    toolSegments special tool.toList =
      [toolsSegment, percentEncode (EncodeSet.segment special) tool.toList] := by
  have hkept : (tool.toList.filter fun c => !isDropped c) = tool.toList := by
    rw [List.filter_eq_self]
    intro c hc
    rw [hintact c hc]
    rfl
  rw [not_or] at hdots
  unfold toolSegments
  simp only [hkept]
  rw [if_neg hdots.2, if_neg hdots.1]

/-- If a call adds a segment that decodes to the name of the tool, then no character has been dropped. -/
theorem intact_of_segment {special : Bool} {tool : String} {segment : List Char}
    (h : toolSegments special tool.toList = [toolsSegment, segment]) (hne : segment ≠ [])
    (hdecode : percentDecode segment = Text.Utf8.encode tool) : Intact tool := by
  unfold toolSegments at h
  simp only at h
  split at h
  · exact absurd (congrArg List.length h) (by simp)
  · split at h
    · exact absurd (List.cons.inj (List.cons.inj h).2).1.symm hne
    · -- What is decoded are the bytes of the characters that are kept, and these are all of them.
      obtain rfl := (List.cons.inj (List.cons.inj h).2).1
      rw [percentDecode_percentEncode (segment_set_percent special)] at hdecode
      have hkept := congrArg String.toList (Text.Utf8.encode_injective hdecode)
      rw [String.toList_ofList, List.filter_eq_self] at hkept
      intro c hc
      simpa using hkept c hc

/-- **The segments of a call are one below the list exactly if no character of the tool is dropped.** -/
theorem oneBelow_iff_intact {base : Url} {path : List (List Char)} {tool : String} (hne : tool ≠ "")
    (hdots : ¬ (tool.toList = ['.'] ∨ tool.toList = ['.', '.'])) :
    OneBelow tool (base.withSegments (path ++ [toolsSegment]))
        (base.withSegments (path ++ toolSegments true tool.toList)) ↔ Intact tool := by
  constructor
  · rintro ⟨segments, segment, hlist, hurl, hsegment, -, hdecode⟩
    obtain rfl : path ++ [toolsSegment] = segments := Path.segments.inj hlist
    have hpath := Path.segments.inj (congrArg Url.path hurl)
    rw [List.append_assoc] at hpath
    exact intact_of_segment (List.append_cancel_left hpath) hsegment hdecode
  · intro hintact
    have hsegments := toolSegments_of_intact hintact true hdots
    have hdecode : percentDecode (percentEncode (EncodeSet.segment true) tool.toList) =
        Text.Utf8.encode tool := by
      rw [percentDecode_percentEncode (segment_set_percent true), String.ofList_toList]
    refine ⟨path ++ [toolsSegment], _, rfl, ?_, ?_, ?_, hdecode⟩
    · rw [hsegments, List.append_assoc]
      rfl
    · intro hempty
      rw [hempty] at hdecode
      have hbytes : Text.Utf8.encode tool = Text.Utf8.encode "" := hdecode.symm
      exact hne (Text.Utf8.encode_injective hbytes)
    · apply contained_toolSegments tool.toList
      rw [hsegments]
      exact List.mem_cons_of_mem _ List.mem_cons_self

theorem OneBelow.ne_sent_of_around {tool : String} {list url : Url} {a : Authority}
    {path : List (List Char)} (h : OneBelow tool list url) (ha : list.authority = some a)
    (hlist : list.path = .segments path) (hne : path ≠ []) (hpath : ∀ s ∈ path, Contained s)
    {other : Url} (hother : other ∈ list.around) : url.sent ≠ other.sent := by
  obtain ⟨segments, segment, hsegments, rfl, hsegment, hcontained, -⟩ := h
  obtain rfl : segments = path := Path.segments.inj (hsegments.symm.trans hlist)
  unfold around at hother
  rw [hlist] at hother
  obtain ⟨xs, hxs, rfl⟩ := List.mem_map.mp hother
  intro hsent
  have hdrop : ∀ s ∈ segments.dropLast, Contained s :=
    fun s hs => hpath s (List.dropLast_subset _ hs)
  have hlength : segments.dropLast.length < segments.length := by
    rw [List.length_dropLast]
    exact Nat.sub_lt (List.length_pos_iff.mpr hne) Nat.one_pos
  have hall : ∀ s ∈ xs, Contained s := by
    simp only [List.mem_cons, List.not_mem_nil, or_false] at hxs
    rcases hxs with rfl | rfl | rfl | rfl
    · exact hpath
    · exact forall_mem_concat hpath contained_nil
    · exact hdrop
    · exact forall_mem_concat hdrop contained_nil
  have heq := segments_of_sent ha (forall_mem_concat hpath hcontained) hall hsent
  simp only [List.mem_cons, List.not_mem_nil, or_false] at hxs
  rcases hxs with rfl | rfl | rfl | rfl
  · exact absurd (congrArg List.length heq) (by simp)
  · exact hsegment (List.cons.inj (List.append_cancel_left heq)).1
  · exact absurd (congrArg List.length heq) (by simp; omega)
  · exact absurd (congrArg List.length heq) (by simp; omega)

theorem OneBelow.tool_of_sent {tool tool' : String} {list url url' : Url} {a : Authority}
    {path : List (List Char)} (h : OneBelow tool list url) (h' : OneBelow tool' list url')
    (ha : list.authority = some a) (hlist : list.path = .segments path)
    (hpath : ∀ s ∈ path, Contained s) (hsent : url.sent = url'.sent) : tool = tool' := by
  obtain ⟨segments, segment, hsegments, rfl, -, hcontained, hdecode⟩ := h
  obtain ⟨segments', segment', hsegments', rfl, -, hcontained', hdecode'⟩ := h'
  obtain rfl : segments = path := Path.segments.inj (hsegments.symm.trans hlist)
  obtain rfl : segments' = segments := Path.segments.inj (hsegments'.symm.trans hlist)
  have heq := segments_of_sent ha (forall_mem_concat hpath hcontained)
    (forall_mem_concat hpath hcontained') hsent
  obtain rfl : segment = segment' := (List.cons.inj (List.append_cancel_left heq)).1
  exact Text.Utf8.encode_injective (hdecode.symm.trans hdecode')

end Url

namespace Operation

open Client Url

variable {node : Node} {base : Url}

theorem not_badTool_of_ok {tool : String} (h : checkToolName tool = .ok ()) : tool ∉ badTools := by
  intro hbad
  obtain ⟨reason, hreason⟩ := checkToolName_of_bad hbad
  rw [h] at hreason
  exact absurd hreason (by simp)

/-- The endpoints of a node: its own segments, but for what the tools are put behind, come first. -/
theorem endpoints_of_parse [Idna] (hparse : Url.parse node.url = .ok base)
    (hscheme : sendable base.scheme = true) :
    ∃ a path, base.authority = some a ∧ (∀ s ∈ path, Contained s) ∧
      endpoint node ["tools"] = .ok (base.withSegments (path ++ [toolsSegment])) ∧
      ∀ tool, checkToolName tool = .ok () →
        endpoint node ["tools", tool] =
          .ok (base.withSegments (path ++ toolSegments true tool.toList)) := by
  obtain ⟨hspecial, hfile⟩ := special_of_sendable hscheme
  obtain ⟨a, segments, ha, hpath, hcontained⟩ := segments_of_parse hparse hspecial hfile
  refine ⟨a, front segments, ha, fun s hs => hcontained s (mem_of_mem_front hs), ?_, ?_⟩
  · exact endpoint_of_extend hparse (extend_segments toolFits_listTools hspecial hpath)
  · intro tool htool
    have hfits : (invoke tool ⟨.null, none⟩).ToolFits :=
      toolFits_invoke_iff.mpr (not_badTool_of_ok htool)
    exact endpoint_of_extend hparse (extend_segments hfits hspecial hpath)

/-- **A tool name travels as one segment exactly if it is intact.** For a node whose URL is read with the
scheme `http` or `https`, and any tool name that is accepted, the URL of the call is one below the URL of
the list exactly if no character of the name is dropped. What is sent, if anything, is sent to these URLs.
A call with such a name then goes neither to the list nor to what is around it, and two calls with such
names never go to one place. -/
theorem one_below_iff_intact [Idna] (hparse : Url.parse node.url = .ok base)
    (hscheme : sendable base.scheme = true) :
    ∃ list, endpoint node ["tools"] = .ok list ∧
      (∀ peer, listTools.SendsOnly node peer (listToolsAt node peer).peer) ∧
      (∀ tool, checkToolName tool = .ok () →
        ∃ url, endpoint node ["tools", tool] = .ok url ∧
          (OneBelow tool list url ↔ Intact tool) ∧
          (∀ envelope peer,
            (invoke tool envelope).SendsOnly node peer (invokeAt node tool envelope peer).peer) ∧
          (∀ envelope, ((invoke tool envelope).request node url).url.toString = url.sent) ∧
          (Intact tool → ∀ other ∈ list.around, url.sent ≠ other.sent)) ∧
      ∀ tool tool' url url', checkToolName tool = .ok () → checkToolName tool' = .ok () →
        Intact tool → Intact tool' → endpoint node ["tools", tool] = .ok url →
        endpoint node ["tools", tool'] = .ok url' → url.sent = url'.sent → tool = tool' := by
  obtain ⟨a, path, ha, hpath, hlist, htools⟩ := endpoints_of_parse hparse hscheme
  have hcontained : ∀ s ∈ path ++ [toolsSegment], Contained s :=
    forall_mem_concat hpath contained_toolsSegment
  have hbelow : ∀ tool, checkToolName tool = .ok () →
      (OneBelow tool (base.withSegments (path ++ [toolsSegment]))
        (base.withSegments (path ++ toolSegments true tool.toList)) ↔ Intact tool) := by
    intro tool htool
    have hbad := not_badTool_of_ok htool
    apply oneBelow_iff_intact
    · rintro rfl
      exact hbad (by decide)
    · have hfits : (invoke tool ⟨.null, none⟩).ToolFits := toolFits_invoke_iff.mpr hbad
      exact not_dots_of_fits hfits
  refine ⟨_, hlist, ?_, ?_, ?_⟩
  · intro peer
    exact performAt_sends toolFits_listTools node peer
  · intro tool htool
    refine ⟨_, htools tool htool, hbelow tool htool, ?_, fun _ => rfl, ?_⟩
    · intro envelope peer
      exact performAt_sends (toolFits_invoke_iff.mpr (not_badTool_of_ok htool)) node peer
    · intro hintact other hother
      exact ((hbelow tool htool).mpr hintact).ne_sent_of_around ha rfl (by simp) hcontained hother
  · intro tool tool' url url' htool htool' hintact hintact' hurl hurl' hsent
    rw [htools tool htool] at hurl
    rw [htools tool' htool'] at hurl'
    obtain rfl := Except.ok.inj hurl
    obtain rfl := Except.ok.inj hurl'
    exact ((hbelow tool htool).mpr hintact).tool_of_sent ((hbelow tool' htool').mpr hintact') ha rfl
      hcontained hsent

/-- A name with slashes, dots and escapes is one segment. -/
theorem one_below_of_escapes :
    let _ : Idna := .ascii
    let node : Node := ⟨"a", "http://h/a/?q#f", none⟩
    ∃ list url, endpoint node ["tools"] = .ok list ∧ endpoint node ["tools", "../%2e"] = .ok url ∧
      OneBelow "../%2e" list url ∧ url.sent = "http://h/a/tools/..%2F%252e?q" := by
  intro _ node
  let base : Url :=
    ⟨"http".toList, some ⟨[], ['h'], none⟩, .segments [['a'], []], some ['q'], some ['f']⟩
  have hparse : Url.parse node.url = .ok base := by decide +kernel
  obtain ⟨list, hlist, -, htools, -⟩ := one_below_iff_intact hparse (by decide)
  obtain ⟨url, hurl, hbelow, -⟩ := htools "../%2e" rfl
  refine ⟨list, url, hlist, hurl, hbelow.mpr (by decide), ?_⟩
  have hextend : base.extend? (["tools", "../%2e"].map String.toList) =
      some (base.withSegments [['a'], toolsSegment, "..%2F%252e".toList]) := by decide +kernel
  rw [endpoint_of_extend hparse hextend] at hurl
  obtain rfl := Except.ok.inj hurl
  decide +kernel

/-- Not every accepted name travels: of two dots and a tab the tab is dropped after the name has been
accepted, and the two dots take the segment of the list away. -/
theorem not_always_one_below :
    ¬ ∀ [Idna] (node : Node) (base : Url) (tool : String),
      Url.parse node.url = .ok base → sendable base.scheme = true → checkToolName tool = .ok () →
        ∃ list url, endpoint node ["tools"] = .ok list ∧ endpoint node ["tools", tool] = .ok url ∧
          OneBelow tool list url := by
  intro hall
  let _ : Idna := .ascii
  let node : Node := ⟨"a", "http://a", none⟩
  let base : Url := ⟨"http".toList, some ⟨[], ['a'], none⟩, .segments [[]], none, none⟩
  have hparse : Url.parse node.url = .ok base := by decide +kernel
  obtain ⟨list, url, hlist, hurl, segments, segment, hsegments, rfl, hne, -⟩ :=
    hall node base "..\t" hparse (by decide) rfl
  have hextend : base.extend? (["tools", "..\t"].map String.toList) = some base := by decide +kernel
  rw [endpoint_of_extend hparse hextend] at hurl
  have hroot : [[]] = segments ++ [segment] := Path.segments.inj (congrArg Url.path (Except.ok.inj hurl))
  have hlast := congrArg List.getLast? hroot
  rw [List.getLast?_concat] at hlast
  exact hne (Option.some.inj hlast).symm

end Operation

end ToolNodes
