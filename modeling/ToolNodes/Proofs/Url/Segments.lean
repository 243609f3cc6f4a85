import ToolNodes.Proofs.Basic
import ToolNodes.Proofs.Url.Host

/-!
# The segments of a path

A segment ends at a slash of either kind, and a path at a question mark or a number sign. No segment of a
URL with a special scheme holds one of them, whether it was read (`segments_of_parse`) or added
(`contained_toolSegments`), so a path has as many segments in its text as in the URL. Segments are added
behind those that are there (`push_tools`, `push_tool`), one empty segment at the end aside, and a
path that then is a single empty segment counts as none.
-/

namespace ToolNodes.Url

/-! ## What a segment does not hold -/

/-- The characters that end a segment or the path. -/
def delimiters : List Char := ['/', '\\', '?', '#']

/-- No character of a text ends a segment or the path. -/
def Contained (segment : List Char) : Prop := ∀ c ∈ segment, c ∉ delimiters

theorem contained_nil : Contained [] := fun _ hc => absurd hc List.not_mem_nil

theorem hexUpper_not_mem_delimiters : ∀ n < 16, hexUpper n ∉ delimiters := by decide

theorem contained_encodeByte (b : UInt8) : Contained (encodeByte b) := by
  have hb : b.toNat < 256 := b.toNat_lt
  intro c hc
  simp only [encodeByte, List.mem_cons, List.not_mem_nil, or_false] at hc
  rcases hc with rfl | rfl | rfl
  · decide
  · exact hexUpper_not_mem_delimiters _ (by omega)
  · exact hexUpper_not_mem_delimiters _ (by omega)

/-- A text is contained when it has been encoded with a set that holds what ends a segment or the path,
as far as the text has it. -/
theorem contained_percentEncode {set : EncodeSet} {s : List Char}
    (h : ∀ c ∈ s, c ∈ delimiters → set c = true) : Contained (percentEncode set s) := by
  intro c hc hdelimiter
  unfold percentEncode at hc
  obtain ⟨d, hd, hcd⟩ := List.mem_flatMap.mp hc
  split at hcd
  · rename_i hplain
    rw [List.mem_singleton.mp hcd] at hdelimiter
    simp [h d hd hdelimiter] at hplain
  · obtain ⟨b, -, hb⟩ := List.mem_flatMap.mp hcd
    exact contained_encodeByte b c hb hdelimiter

/-! ## Paths that are read -/

theorem mem_shorten {file : Bool} {path : List (List Char)} {s : List Char}
    (h : s ∈ shorten file path) : s ∈ path := by
  unfold shorten at h
  split at h
  · split at h
    · exact h
    · exact absurd h List.not_mem_nil
  · exact List.dropLast_subset _ h

theorem forall_mem_concat {P : List Char → Prop} {path : List (List Char)} {segment : List Char}
    (hpath : ∀ s ∈ path, P s) (hsegment : P segment) : ∀ s ∈ path ++ [segment], P s := by
  intro s hs
  rcases List.mem_append.mp hs with hs | hs
  · exact hpath s hs
  · rw [List.mem_singleton.mp hs]
    exact hsegment

/-- Resolving dots and encoding what is left keeps every segment contained. -/
theorem contained_resolve {path rest : List (List Char)} (hpath : ∀ s ∈ path, Contained s)
    (hrest : ∀ s ∈ rest, ∀ c ∈ s, isSlash true c = false) :
    ∀ s ∈ resolve false path rest, Contained s := by
  induction rest generalizing path with
  | nil => exact hpath
  | cons segment rest ih =>
      have hlater : ∀ s ∈ rest, ∀ c ∈ s, isSlash true c = false :=
        fun s hs => hrest s (List.mem_cons_of_mem _ hs)
      have habove : ∀ s ∈ shorten false path, Contained s := fun s hs => hpath s (mem_shorten hs)
      rw [resolve]
      split
      · apply ih _ hlater
        split
        · exact forall_mem_concat habove contained_nil
        · exact habove
      · split
        · apply ih _ hlater
          split
          · exact forall_mem_concat hpath contained_nil
          · exact hpath
        · split
          · rename_i hfile
            exact absurd hfile (by simp)
          · apply ih _ hlater
            apply forall_mem_concat hpath
            apply contained_percentEncode
            intro c hc hdelimiter
            have hslash := hrest segment List.mem_cons_self c hc
            simp only [delimiters, List.mem_cons, List.not_mem_nil, or_false] at hdelimiter
            rcases hdelimiter with rfl | rfl | rfl | rfl
            · exact absurd hslash (by decide)
            · exact absurd hslash (by decide)
            · rfl
            · rfl

theorem contained_pathSegments (s : List Char) : ∀ t ∈ pathSegments true s, Contained t := by
  apply contained_resolve (fun _ ht => absurd ht List.not_mem_nil)
  intro piece hpiece c hc
  exact Text.none_of_mem_splitOn hpiece hc

/-- **A URL with a special scheme other than that of files has an authority and a path of contained
segments.** -/
theorem segments_of_parse [Idna] {text : String} {url : Url} (h : parse text = .ok url)
    (hs : isSpecial url.scheme = true) (hf : url.scheme ≠ fileScheme) :
    ∃ a segments, url.authority = some a ∧ url.path = .segments segments ∧
      ∀ s ∈ segments, Contained s := by
  unfold parse at h
  split at h
  · exact absurd h (by simp)
  · rename_i scheme rest _
    split at h
    · exact absurd (fileUrl_scheme h) hf
    · split at h
      · rename_i hspecial
        unfold withAuthority at h
        obtain ⟨a, -, h⟩ := ok_of_bind h
        cases h
        refine ⟨a, _, rfl, rfl, ?_⟩
        rw [hspecial]
        split
        · intro s hs
          rw [List.mem_singleton.mp hs]
          exact contained_nil
        · exact contained_pathSegments _
      · rename_i hspecial
        rw [otherUrl_scheme h] at hs
        exact absurd hs hspecial

/-! ## Segments that are added -/

/-- A path without an empty segment at its end. -/
def withoutLastEmpty (path : List (List Char)) : List (List Char) :=
  if path.getLast? = some [] then path.dropLast else path

/-- The segments that others are added behind: those of the path without an empty one at its end, and
none if only a single empty one is left. -/
def front (path : List (List Char)) : List (List Char) :=
  if withoutLastEmpty path = [[]] then [] else withoutLastEmpty path

def toolsSegment : List Char := ['t', 'o', 'o', 'l', 's']

/-- What a call of a tool adds: `tools` and the tool, encoded and without the characters that no URL holds.
A tool that then is a single dot comes out as an empty segment, and one of two dots takes `tools` away. -/
def toolSegments (special : Bool) (tool : List Char) : List (List Char) :=
  let kept := tool.filter fun c => !isDropped c
  if kept = ['.', '.'] then [[]]
  else if kept = ['.'] then [toolsSegment, []]
  else [toolsSegment, percentEncode (EncodeSet.segment special) kept]

theorem front_of_popEmpty (path : List (List Char)) :
    (if popEmpty path = [[]] then [] else popEmpty path) = front path := by
  unfold front withoutLastEmpty
  cases path with
  | nil => rfl
  | cons first rest =>
      cases rest with
      | nil =>
          -- A lone segment is not popped, but one that is empty is dropped all the same.
          by_cases hfirst : first = []
          · rw [hfirst]
            rfl
          · simp [popEmpty, hfirst]
      | cons second rest => rfl

theorem push_tools (special : Bool) (path : List (List Char)) :
    pushSegment special (popEmpty path) toolsSegment = front path ++ [toolsSegment] := by
  have hencode : percentEncode (EncodeSet.segment special) toolsSegment = toolsSegment := by
    cases special <;> decide
  have hkept : (toolsSegment.filter fun c => !isDropped c) = toolsSegment := by decide
  have hdots : ¬ (toolsSegment = ['.'] ∨ toolsSegment = ['.', '.']) := by decide
  unfold pushSegment
  simp only [hkept, front_of_popEmpty, hencode]
  rw [if_neg (by simpa using hdots), if_neg (by decide), if_neg (by decide)]

theorem push_tool {special : Bool} {tool : List Char} (path : List (List Char))
    (htool : ¬ (tool = ['.'] ∨ tool = ['.', '.'])) :
    pushSegment special (path ++ [toolsSegment]) tool = path ++ toolSegments special tool := by
  have hnot : ¬ path ++ [toolsSegment] = [[]] := by
    intro h
    have hlast := congrArg List.getLast? h
    rw [List.getLast?_concat] at hlast
    exact absurd hlast (by decide)
  unfold pushSegment toolSegments
  simp only [if_neg hnot]
  rw [if_neg (by simpa using htool)]
  split
  · rw [List.dropLast_concat]
  · split
    · rw [List.append_assoc]
      rfl
    · rw [List.append_assoc]
      rfl

theorem contained_toolsSegment : Contained toolsSegment := by
  have hall : (toolsSegment.all fun c => !delimiters.contains c) = true := by decide
  intro c hc
  simpa using List.all_eq_true.mp hall c hc

theorem contained_toolSegments (tool : List Char) :
    ∀ s ∈ toolSegments true tool, Contained s := by
  have htool : Contained
      (percentEncode (EncodeSet.segment true) (tool.filter fun c => !isDropped c)) := by
    apply contained_percentEncode
    intro c _ hdelimiter
    simp only [delimiters, List.mem_cons, List.not_mem_nil, or_false] at hdelimiter
    rcases hdelimiter with rfl | rfl | rfl | rfl
    · rfl
    · rfl
    · rfl
    · rfl
  intro s hs
  unfold toolSegments at hs
  simp only at hs
  split at hs
  · rw [List.mem_singleton.mp hs]
    exact contained_nil
  · split at hs
    · rcases List.mem_cons.mp hs with rfl | hs
      · exact contained_toolsSegment
      · rw [List.mem_singleton.mp hs]
        exact contained_nil
    · rcases List.mem_cons.mp hs with rfl | hs
      · exact contained_toolsSegment
      · rw [List.mem_singleton.mp hs]
        exact htool

theorem mem_of_mem_front {path : List (List Char)} {s : List Char} (h : s ∈ front path) :
    s ∈ path := by
  have hwithout : ∀ s ∈ withoutLastEmpty path, s ∈ path := by
    intro s hs
    unfold withoutLastEmpty at hs
    split at hs
    · exact List.dropLast_subset _ hs
    · exact hs
  unfold front at h
  split at h
  · exact absurd h List.not_mem_nil
  · exact hwithout s h

end ToolNodes.Url
