import ToolNodes.Command
import ToolNodes.Proofs.Json.Nesting

/-!
# Direct calls are read in one way

A line that is a direct call is cut into a tool and a JSON text, or into a node, a tool and a JSON text
(`DirectCall.Cut`). The two-word form is tried first, but it never takes a line of three parts, since behind
a word and a gap a JSON text makes no other (`Json.not_ok_behind_word`). So every cut is read as it is meant
(`parse_of_cut`), and a line that is read has one cut only (`Cut.unique`).
-/

namespace ToolNodes

open Text

namespace Json

variable {v : Json} {p : List Char}

/-! ## Payloads -/

theorem piecesOf_ofList (p : List Char) : piecesOf (String.ofList p) = p.map .scalar := by
  unfold piecesOf
  rw [String.toList_ofList]

/-- What opens with a word and a gap is not read with a text behind it that is read on its own. -/
theorem not_ok_behind_word {word gap : List Char} (hword : IsWord word) (hgap : IsGap gap)
    (h : ofString (String.ofList p) = .ok v) (w : Json) :
    ofString (String.ofList (word ++ (gap ++ p))) ≠ .ok w := by
  intro hw
  unfold ofString at h hw
  rw [piecesOf_ofList] at h hw
  obtain ⟨hcomplete, hnested⟩ := nests_of_ofPieces h
  obtain ⟨first, word, rfl⟩ := List.exists_cons_of_ne_nil hword.ne
  have hfirst : isBlankPiece (.scalar first) = false := hword.solid first List.mem_cons_self
  have hblank : isBlankPiece (.scalar (gap.getLast hgap.ne)) = true :=
    hgap.blank _ (List.getLast_mem hgap.ne)
  have hsplit : (first :: word ++ (gap ++ p)).map Piece.scalar =
      .scalar first :: ((word ++ gap.dropLast).map .scalar) ++
        .scalar (gap.getLast hgap.ne) :: p.map .scalar := by
    conv_lhs => rw [← List.dropLast_append_getLast hgap.ne]
    simp
  rw [hsplit] at hw
  exact Scan.not_complete_of_word hfirst hblank _ hcomplete hnested (nests_of_ofPieces hw).1

/-- What spells a value, without blanks in front, has none around it. -/
theorem ends_of_spells {d : Nat} {text : List Piece} (h : Spells d (.value v) (skipSpace text))
    (hp : p.map .scalar = skipSpace text) : startsIn isBlank p = false ∧ endsIn isBlank p = false := by
  constructor
  · obtain ⟨piece, behind, htext, hpiece⟩ := h.head
    rw [htext] at hp
    obtain ⟨c, p, rfl, rfl, -⟩ := List.map_eq_cons_iff.mp hp
    rcases hpiece with hspace | hsolid
    · have hnot := List.head?_dropWhile_not isSpace text
      unfold skipSpace at htext
      rw [htext] at hnot
      exact absurd hspace (by simpa using hnot)
    · exact hsolid
  · obtain ⟨front, piece, htext, hpiece⟩ := h.endsSolid
    rw [htext] at hp
    obtain ⟨init, last, rfl, -, hlast⟩ := List.map_eq_append_iff.mp hp
    obtain ⟨c, tail, rfl, rfl, hnil⟩ := List.map_eq_cons_iff.mp hlast
    obtain rfl := List.map_eq_nil_iff.mp hnil
    unfold endsIn
    rw [List.getLast?_concat]
    exact hpiece

/-- **A text that is read is read the same without the blanks around it**, and is not all blanks. -/
theorem ofString_trim (h : ofString (String.ofList p) = .ok v) :
    ofString (String.ofList (trim p)) = .ok v ∧ trim p ≠ [] := by
  unfold ofString at h ⊢
  rw [piecesOf_ofList] at h ⊢
  obtain ⟨text, gap, hp, hspells, hgap⟩ := ofPieces_eq_ok_iff.mp h
  obtain ⟨lead, htext, hlead⟩ := exists_gap text
  have htight : Spells maxDepth (.value v) (skipSpace text) := hspells.skipSpace trivial
  rw [htext, List.append_assoc] at hp
  obtain ⟨before, p', rfl, rfl, hp'⟩ := List.map_eq_append_iff.mp hp
  obtain ⟨body, behind, rfl, hbody, rfl⟩ := List.map_eq_append_iff.mp hp'
  obtain ⟨hstart, hend⟩ := ends_of_spells htight hbody
  have hblank : ∀ {s : List Char}, (∀ piece ∈ s.map Piece.scalar, isSpace piece = true) →
      ∀ c ∈ s, isBlank c = true :=
    fun hs c hc => isBlankPiece_of_isSpace (hs _ (List.mem_map_of_mem hc))
  have htrim : trim (before ++ (body ++ behind)) = body := by
    rw [← List.append_assoc]
    exact trim_of_parts (hblank hlead) (hblank hgap) hstart hend
  rw [htrim]
  constructor
  · rw [hbody]
    exact ofPieces_eq_ok_iff.mpr ⟨_, [], (List.append_nil _).symm, htight,
      fun _ hpiece => absurd hpiece List.not_mem_nil⟩
  · rintro rfl
    exact htight.endsSolid.ne_nil hbody.symm

end Json

namespace DirectCall

/-! ## Cuts -/

/-- A text cut into the words and the payload of a call and the gaps between them. A node comes with the
gap behind it. -/
@[ext]
structure Cut where
  node : Option (List Char × List Char)
  tool : List Char
  gap : List Char
  payload : List Char

namespace Cut

/-- The tool, the payload and the gap between them. -/
def core (c : Cut) : List Char := c.tool ++ (c.gap ++ c.payload)

def text (c : Cut) : List Char :=
  match c.node with
  | none => c.core
  | some (node, gap) => node ++ (gap ++ c.core)

/-- The cut is along words and gaps, and its payload is JSON. -/
structure Of (c : Cut) (call : DirectCall) : Prop where
  node : ∀ node gap, c.node = some (node, gap) → IsWord node ∧ IsGap gap
  tool : IsWord c.tool
  gap : IsGap c.gap
  payload : Json.ofString (String.ofList c.payload) = .ok call.payload
  node_eq : call.node = c.node.map fun n => String.ofList n.1
  tool_eq : call.tool = String.ofList c.tool

/-- There are no blanks around the payload. -/
structure Tight (c : Cut) : Prop where
  start : startsIn isBlank c.payload = false
  stop : endsIn isBlank c.payload = false

variable {c c' : Cut} {call call' : DirectCall}

theorem Of.payload_ne_nil (h : c.Of call) (htight : c.Tight) : c.payload ≠ [] := by
  have hne := (Json.ofString_trim h.payload).2
  rw [trim_eq_self htight.start htight.stop] at hne
  exact hne

theorem core_ends (h : c.Of call) (htight : c.Tight) :
    startsIn isBlank c.core = false ∧ endsIn isBlank c.core = false := by
  have hne := h.payload_ne_nil htight
  refine ⟨startsIn_word h.tool _, ?_⟩
  unfold core
  rw [endsIn_append (List.append_ne_nil_of_right_ne_nil _ hne), endsIn_append hne]
  exact htight.stop

theorem text_ends (h : c.Of call) (htight : c.Tight) :
    startsIn isBlank c.text = false ∧ endsIn isBlank c.text = false := by
  obtain ⟨hstart, hend⟩ := core_ends h htight
  unfold text
  split
  · exact ⟨hstart, hend⟩
  · rename_i node gap hnode
    obtain ⟨hword, -⟩ := h.node node gap hnode
    have hne : c.core ≠ [] := List.append_ne_nil_of_left_ne_nil h.tool.ne _
    refine ⟨startsIn_word hword _, ?_⟩
    rw [endsIn_append (List.append_ne_nil_of_right_ne_nil _ hne), endsIn_append hne]
    exact hend

/-- The blanks in front of the payload belong to the gap as well, and those behind it to none of the parts:
what is left of a cut is tight. -/
theorem exists_tight (h : c.Of call) :
    ∃ c' : Cut, ∃ trail, c.text = c'.text ++ trail ∧ (∀ d ∈ trail, isBlank d = true) ∧ c'.Tight ∧
      c'.Of call := by
  obtain ⟨node, tool, gap, payload⟩ := c
  obtain ⟨lead, trail, hpayload, hlead, htrail⟩ := parts_of_trim payload
  have hgap : IsGap (gap ++ lead) :=
    ⟨List.append_ne_nil_of_left_ne_nil h.gap.ne _, List.forall_mem_append.mpr ⟨h.gap.blank, hlead⟩⟩
  have hcore : tool ++ (gap ++ payload) = tool ++ (gap ++ lead ++ trim payload) ++ trail := by
    conv_lhs => rw [hpayload]
    simp
  refine ⟨⟨node, tool, gap ++ lead, trim payload⟩, trail, ?_, htrail,
    ⟨startsIn_trim payload, endsIn_trim payload⟩,
    ⟨h.node, h.tool, hgap, (Json.ofString_trim h.payload).1, h.node_eq, h.tool_eq⟩⟩
  cases node with
  | none => exact hcore
  | some n =>
      show n.1 ++ (n.2 ++ (tool ++ (gap ++ payload))) = _
      rw [hcore]
      simp [text, core]

end Cut

/-! ## Reading -/

variable {line : String} {c c' : Cut} {call call' : DirectCall} {first rest : List Char}

/-- A line of two words or more is read as what stands behind the first one. -/
theorem parse_of_split (h : splitFirst (trim line.toList) = (first, rest)) (hfirst : first ≠ [])
    (hrest : rest ≠ []) :
    parse line =
      match Json.ofString (String.ofList rest) with
      | .ok payload => .ok ⟨none, String.ofList first, payload⟩
      | .error e =>
        let (tool, text) := splitFirst rest
        if text.isEmpty then .error (.invalidJson e)
        else
          (Command.payload text).map fun payload =>
            ⟨some (String.ofList first), String.ofList tool, payload⟩ := by
  have hboth : (first.isEmpty || rest.isEmpty) = false := by simp [hfirst, hrest]
  unfold parse
  rw [h]
  exact if_neg (by simp [hboth])

section Split

variable (h : splitFirst (trim line.toList) = (first, rest)) (hfirst : first ≠ []) (hrest : rest ≠ [])

include h hfirst hrest

theorem parse_of_payload {payload : Json}
    (hread : Json.ofString (String.ofList rest) = .ok payload) :
    parse line = .ok ⟨none, String.ofList first, payload⟩ := by
  rw [parse_of_split h hfirst hrest, hread]

theorem parse_of_rest {e : Json.Error} {tool text : List Char}
    (hread : Json.ofString (String.ofList rest) = .error e) (hsplit : splitFirst rest = (tool, text))
    (htext : text ≠ []) :
    parse line = (Command.payload text).map fun payload =>
      ⟨some (String.ofList first), String.ofList tool, payload⟩ := by
  rw [parse_of_split h hfirst hrest, hread]
  simp only [hsplit]
  exact if_neg (by simpa using htext)

theorem parse_of_no_payload {e : Json.Error}
    (hread : Json.ofString (String.ofList rest) = .error e) (hword : IsWord rest) :
    parse line = .error (.invalidJson e) := by
  rw [parse_of_split h hfirst hrest, hread]
  simp only [splitFirst_of_word hword]
  rfl

end Split

theorem parse_of_tight (hline : trim line.toList = c.text) (htight : c.Tight) (h : c.Of call) :
    parse line = .ok call := by
  obtain ⟨hstart, hend⟩ := Cut.core_ends h htight
  have hpayload := h.payload_ne_nil htight
  have hcore : splitFirst c.core = (c.tool, c.payload) :=
    splitFirst_word h.tool h.gap htight.start htight.stop
  obtain ⟨node, tool, payload⟩ := call
  obtain rfl : node = _ := h.node_eq
  obtain rfl : tool = _ := h.tool_eq
  have hread : Json.ofString (String.ofList c.payload) = .ok payload := h.payload
  unfold Cut.text at hline
  cases hnode : c.node with
  | none =>
      rw [hnode] at hline
      simp only at hline
      rw [← hline] at hcore
      exact parse_of_payload hcore h.tool.ne hpayload hread
  | some n =>
      obtain ⟨node, gap⟩ := n
      obtain ⟨hword, hgap⟩ := h.node node gap hnode
      have hsplit : splitFirst (trim line.toList) = (node, c.core) := by
        rw [hline, hnode]
        exact splitFirst_word hword hgap hstart hend
      have hne : c.core ≠ [] := List.append_ne_nil_of_left_ne_nil h.tool.ne _
      cases hcapture : Json.ofString (String.ofList c.core) with
      | ok w => exact absurd hcapture (Json.not_ok_behind_word h.tool h.gap hread w)
      | error e =>
          rw [parse_of_rest hsplit hword.ne hne hcapture hcore hpayload]
          unfold Command.payload
          rw [hread]
          rfl

/-- **Every cut is read as it is meant**, with any blanks around it. -/
theorem parse_of_cut {lead trail : List Char} (hline : line.toList = lead ++ c.text ++ trail)
    (hlead : ∀ d ∈ lead, isBlank d = true) (htrail : ∀ d ∈ trail, isBlank d = true)
    (h : c.Of call) : parse line = .ok call := by
  obtain ⟨c', behind, htext, hbehind, htight, h'⟩ := Cut.exists_tight h
  obtain ⟨hstart, hend⟩ := Cut.text_ends h' htight
  have hblank : ∀ d ∈ behind ++ trail, isBlank d = true :=
    List.forall_mem_append.mpr ⟨hbehind, htrail⟩
  apply parse_of_tight _ htight h'
  rw [hline, htext, ← List.append_assoc, List.append_assoc]
  exact trim_of_parts hlead hblank hstart hend

/-! ## What is read -/

theorem parse_of_short (h : trim line.toList = [] ∨ IsWord (trim line.toList)) :
    parse line = .error (.usage .direct) := by
  unfold parse
  rcases h with hnil | hword
  · rw [hnil]
    rfl
  · rw [splitFirst_of_word hword]
    simp

/-- A line that is too short, or its first word and the rest. -/
theorem short_or_split (line : String) :
    (trim line.toList = [] ∨ IsWord (trim line.toList)) ∨
      ∃ first gap rest, trim line.toList = first ++ (gap ++ rest) ∧ IsWord first ∧ IsGap gap ∧
        rest ≠ [] ∧ startsIn isBlank rest = false ∧ endsIn isBlank rest = false := by
  by_cases hnil : trim line.toList = []
  · exact Or.inl (Or.inl hnil)
  · rcases word_or_split hnil (startsIn_trim _) (endsIn_trim _) with hword | hsplit
    · exact Or.inl (Or.inr hword)
    · exact Or.inr hsplit

/-- **What is read is a cut of the trimmed line**, and what is not too short and not read is an error of
JSON. -/
theorem cut_or_invalid {gap : List Char} (hline : trim line.toList = first ++ (gap ++ rest))
    (hfirst : IsWord first) (hgap : IsGap gap) (hne : rest ≠ [])
    (hstart : startsIn isBlank rest = false) (hend : endsIn isBlank rest = false) :
    (∃ (c : Cut) (call : DirectCall), c.text = trim line.toList ∧ c.Tight ∧ c.Of call ∧ parse line = .ok call) ∨
      ∃ e, parse line = .error (.invalidJson e) := by
  have hsplit : splitFirst (trim line.toList) = (first, rest) := by
    rw [hline]
    exact splitFirst_word hfirst hgap hstart hend
  cases hread : Json.ofString (String.ofList rest) with
  | ok payload =>
      have hparse := parse_of_payload hsplit hfirst.ne hne hread
      refine Or.inl ⟨⟨none, first, gap, rest⟩, _, hline.symm, ⟨hstart, hend⟩, ?_, hparse⟩
      exact ⟨fun _ _ h => absurd h (by simp), hfirst, hgap, hread, rfl, rfl⟩
  | error e =>
      rcases word_or_split hne hstart hend with hword | ⟨tool, gap', payload, rfl, htool, hgap', hne',
        hstart', hend'⟩
      · exact Or.inr ⟨e, parse_of_no_payload hsplit hfirst.ne hne hread hword⟩
      · have hparse := parse_of_rest hsplit hfirst.ne hne hread
          (splitFirst_word htool hgap' hstart' hend') hne'
        unfold Command.payload at hparse
        cases hread' : Json.ofString (String.ofList payload) with
        | ok v =>
            rw [hread'] at hparse
            refine Or.inl ⟨⟨some (first, gap), tool, gap', payload⟩, _, hline.symm,
              ⟨hstart', hend'⟩, ?_, hparse⟩
            refine ⟨?_, htool, hgap', hread', rfl, rfl⟩
            rintro node g hn
            obtain ⟨rfl, rfl⟩ := Prod.mk.inj (Option.some.inj hn)
            exact ⟨hfirst, hgap⟩
        | error e' =>
            rw [hread'] at hparse
            exact Or.inr ⟨e', hparse⟩

/-- The words of a text tell where its gaps are. -/
theorem Cut.eq_of_words (h : c.Of call) (h' : c'.Of call') (htight : c.Tight) (htight' : c'.Tight)
    (hnode : c.node.map Prod.fst = c'.node.map Prod.fst) (htool : c.tool = c'.tool)
    (htext : c.text = c'.text) : c = c' := by
  have hfront : c.node = c'.node ∧ c.core = c'.core := by
    unfold Cut.text at htext
    cases hn : c.node with
    | none =>
        cases hn' : c'.node with
        | none =>
            rw [hn, hn'] at htext
            exact ⟨rfl, htext⟩
        | some n' =>
            rw [hn, hn'] at hnode
            exact absurd hnode (by simp)
    | some n =>
        cases hn' : c'.node with
        | none =>
            rw [hn, hn'] at hnode
            exact absurd hnode (by simp)
        | some n' =>
            obtain ⟨word, gap⟩ := n
            obtain ⟨word', gap'⟩ := n'
            rw [hn, hn'] at hnode htext
            obtain rfl : word = word' := Option.some.inj hnode
            obtain ⟨rfl, hcore⟩ := gap_cancel (h.node _ _ hn).2 (h'.node _ _ hn').2
              (Cut.core_ends h htight).1 (Cut.core_ends h' htight').1 (List.append_cancel_left htext)
            exact ⟨rfl, hcore⟩
  obtain ⟨hnode, hcore⟩ := hfront
  unfold Cut.core at hcore
  rw [htool] at hcore
  obtain ⟨hgap, hpayload⟩ :=
    gap_cancel h.gap h'.gap htight.start htight'.start (List.append_cancel_left hcore)
  exact Cut.ext hnode htool hgap hpayload

/-- **A text has one tight cut at most**, for reading it tells the words, and the words tell the gaps. -/
theorem Cut.unique (h : c.Of call) (h' : c'.Of call') (htight : c.Tight) (htight' : c'.Tight)
    (htext : c.text = c'.text) : c = c' ∧ call = call' := by
  have hcall : call = call' := by
    obtain ⟨hstart, hend⟩ := Cut.text_ends h htight
    have htrim : trim (String.ofList c.text).toList = c.text := by
      rw [String.toList_ofList]
      exact trim_eq_self hstart hend
    have hparse := parse_of_tight htrim htight h
    rw [parse_of_tight (htrim.trans htext) htight' h'] at hparse
    exact (Except.ok.inj hparse).symm
  subst hcall
  refine ⟨Cut.eq_of_words h h' htight htight' ?_ ?_ htext, rfl⟩
  · have hofList : Function.Injective String.ofList := fun _ _ => String.ofList_injective
    apply Option.map_injective hofList
    rw [Option.map_map, Option.map_map]
    exact h.node_eq.symm.trans h'.node_eq
  · exact String.ofList_injective (h.tool_eq.symm.trans h'.tool_eq)

/-! ## Lines -/

/-- A line is too short, or it is read and has a tight cut, or it is an error of JSON. -/
theorem parse_cases (line : String) :
    ((words line.toList).length < 2 ∧ parse line = .error (.usage .direct)) ∨
      (2 ≤ (words line.toList).length ∧
        ((∃ (c : Cut) (call : DirectCall), c.text = trim line.toList ∧ c.Tight ∧ c.Of call ∧
            parse line = .ok call) ∨
          ∃ e, parse line = .error (.invalidJson e))) := by
  by_cases hwords : (words line.toList).length < 2
  · exact Or.inl ⟨hwords, parse_of_short ((words_lt_two_iff line.toList).mp hwords)⟩
  · refine Or.inr ⟨Nat.le_of_not_lt hwords, ?_⟩
    rcases short_or_split line with hshort | ⟨first, gap, rest, hsplit, hfirst, hgap, hne, hstart, hend⟩
    · exact absurd ((words_lt_two_iff line.toList).mpr hshort) hwords
    · exact cut_or_invalid hsplit hfirst hgap hne hstart hend

/-- **Direct calls are read exactly as they are cut.** Behind a word and a gap a JSON text is never JSON
again. So a line is read as a call for every cut of it into a tool and a JSON text, or a node, a tool and a
JSON text, whatever blanks stand around it and whatever the words are made of; a line that is read has
exactly one such cut without blanks around its payload; a line of fewer than two words is an error of usage,
and any other one that has no cut an error of JSON. -/
theorem parse_exactly :
    (∀ (word gap p : List Char) (v w : Json), IsWord word → IsGap gap →
      Json.ofString (String.ofList p) = .ok v →
        Json.ofString (String.ofList (word ++ (gap ++ p))) ≠ .ok w) ∧
    ∀ line : String,
      (∀ (lead trail : List Char) (c : Cut) (call : DirectCall),
        line.toList = lead ++ c.text ++ trail → (∀ d ∈ lead, isBlank d = true) →
        (∀ d ∈ trail, isBlank d = true) → c.Of call → parse line = .ok call) ∧
      (∀ call, parse line = .ok call →
        ∃ c : Cut, c.text = trim line.toList ∧ c.Tight ∧ c.Of call ∧
          ∀ (c' : Cut) (call' : DirectCall), c'.text = trim line.toList → c'.Tight → c'.Of call' →
            c' = c ∧ call' = call) ∧
      (parse line = .error (.usage .direct) ↔ (words line.toList).length < 2) ∧
      (2 ≤ (words line.toList).length →
        (∀ (c : Cut) (call : DirectCall), c.text = trim line.toList → ¬ c.Of call) →
          ∃ e, parse line = .error (.invalidJson e)) := by
  refine ⟨fun _ _ _ _ w hword hgap hread => Json.not_ok_behind_word hword hgap hread w, ?_⟩
  intro line
  refine ⟨fun lead trail c call hline hlead htrail h => parse_of_cut hline hlead htrail h, ?_⟩
  rcases parse_cases line with ⟨hwords, husage⟩ | ⟨hwords, ⟨c, call, htext, htight, h, hread⟩ | ⟨e, he⟩⟩
  · rw [husage]
    exact ⟨fun _ hcall => absurd hcall (by simp), iff_of_true rfl hwords, fun hlong => by omega⟩
  · rw [hread]
    refine ⟨?_, iff_of_false (by simp) (Nat.not_lt.mpr hwords), fun _ hno => absurd h (hno c call htext)⟩
    intro call' hcall
    obtain rfl := Except.ok.inj hcall
    refine ⟨c, htext, htight, h, ?_⟩
    intro c' call' htext' htight' h'
    exact Cut.unique h' h htight' htight (htext'.trans htext.symm)
  · rw [he]
    exact ⟨fun _ hcall => absurd hcall (by simp), iff_of_false (by simp) (Nat.not_lt.mpr hwords),
      fun _ _ => ⟨e, rfl⟩⟩

/-- Words that open a string and an object are words like any other. -/
example : (parse "[\"a \x7b\"k\": [1]").toOption.map (fun call => (call.node, call.tool)) =
    some (some "[\"a", "\x7b\"k\":") := by
  decide +kernel

end DirectCall

end ToolNodes
