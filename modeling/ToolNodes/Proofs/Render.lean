import ToolNodes.Render
import ToolNodes.Proofs.Text.Words

/-!
# What a listing of nodes shows

The line of a node is a star or a space, and behind it some words. Where names and URLs are words
themselves, they are found again in the line, and no line breaks: so a listing comes apart into the lines
of its nodes (`splitOn_listing`), and each line tells what it is to tell (`shows_nodeLine`).
-/

namespace ToolNodes.Render

open Text

/-- A node whose name and URL are words. -/
structure Worded (node : Node) : Prop where
  name : IsWord node.name.toList
  url : IsWord node.url.toList

/-- The words of a node's line: its name and URL with an arrow between them, and behind them a hint if it
has a token. -/
def nodeWords (node : Node) : List (List Char) :=
  [node.name.toList, "->".toList, node.url.toList] ++
    if node.hasToken then ["(token)".toList] else []

/-- What a line shows of a node: the star that only the active node has, and its words. The spaces between
them are all that is blank, so nothing in the line breaks it. -/
structure Shows (active node : Node) (line : List Char) : Prop where
  star : line.head? = some (if node = active then '*' else ' ')
  words : Text.words line.tail = nodeWords node
  spaces : ∀ c ∈ line, isBlank c = true → c = ' '

variable {node : Node} {active : Option String} {listed : List Node}

theorem Worded.isWord (h : Worded node) : ∀ w ∈ nodeWords node, IsWord w := by
  have harrow : IsWord "->".toList := isWord_of_all (by decide) (by decide)
  have hhint : IsWord "(token)".toList := isWord_of_all (by decide) (by decide)
  intro w hw
  unfold nodeWords at hw
  rcases List.mem_append.mp hw with hw | hw
  · simp only [List.mem_cons, List.not_mem_nil, or_false] at hw
    rcases hw with rfl | rfl | rfl
    · exact h.name
    · exact harrow
    · exact h.url
  · split at hw
    · rw [List.mem_singleton.mp hw]
      exact hhint
    · exact absurd hw List.not_mem_nil

theorem toList_nodeLine (active : Option String) (node : Node) :
    (nodeLine active node).toList =
      (if some node.name = active then '*' else ' ') :: spaced (nodeWords node) := by
  unfold nodeLine nodeWords spaced
  split <;> split <;> simp

theorem spaces_nodeLine (h : Worded node) :
    ∀ c ∈ (nodeLine active node).toList, isBlank c = true → c = ' ' := by
  rw [toList_nodeLine]
  intro c hc hblank
  rcases List.mem_cons.mp hc with rfl | hc
  · split at hblank
    · exact absurd hblank (by decide)
    · rename_i hother
      rw [if_neg hother]
  · rcases solid_of_mem_spaced h.isWord hc with rfl | hsolid
    · rfl
    · rw [hblank] at hsolid
      exact absurd hsolid (by simp)

/-- The line of a node shows it, if the active name is that of the active node. -/
theorem shows_nodeLine {chosen : Node} (h : Worded node)
    (hactive : some node.name = active ↔ node = chosen) :
    Shows chosen node (nodeLine active node).toList := by
  refine ⟨?_, ?_, spaces_nodeLine h⟩
  · rw [toList_nodeLine]
    simp only [List.head?_cons, hactive]
  · rw [toList_nodeLine]
    exact words_spaced h.isWord

/-- There is a star for every time that the active node is listed. -/
theorem countP_star {chosen : Node} {lines : List (List Char)}
    (h : List.Forall₂ (Shows chosen) listed lines) :
    lines.countP (fun line => line.head? = some '*') = listed.count chosen := by
  induction h with
  | nil => rfl
  | @cons node line nodes lines hline _ ih =>
      have hstar : line.head? = some '*' ↔ node = chosen := by
        rw [hline.star]
        split <;> simp_all
      rw [List.countP_cons, List.count_cons, ih]
      simp only [hstar, decide_eq_true_eq, beq_iff_eq]

/-- **A listing comes apart into the lines of its nodes**, in their order. -/
theorem splitOn_listing (hne : listed ≠ []) (h : ∀ node ∈ listed, Worded node) :
    splitOn (· = '\n') (nodes listed active ++ "\n").toList =
      listed.map (fun node => (nodeLine active node).toList) ++ [[]] := by
  have hlisting : (nodes listed active).toList =
      ['\n'].intercalate (listed.map fun node => (nodeLine active node).toList) := by
    unfold nodes
    rw [List.isEmpty_eq_false_iff.mpr hne, if_neg Bool.false_ne_true, String.toList_intercalate,
      List.map_map]
    rfl
  have hunbroken : ∀ line ∈ listed.map (fun node => (nodeLine active node).toList),
      '\n' ∉ line := by
    intro line hline hbreak
    obtain ⟨node, hnode, rfl⟩ := List.mem_map.mp hline
    have hspace := spaces_nodeLine (h node hnode) '\n' hbreak (by decide)
    exact absurd hspace (by decide)
  have hnewline : ("\n" : String).toList = ['\n'] := rfl
  rw [String.toList_append, hlisting, hnewline, splitOn_append_separator (by decide),
    splitOn_intercalate '\n' hunbroken (by simpa using hne)]
  rfl

end ToolNodes.Render
