import ToolNodes.Proofs.Json.Grammar
import ToolNodes.Proofs.Json.Strings

/-!
# Pretty JSON reads back

A value without numbers, printed in the pretty form, spells the same value with the members of every
object by key (`spells_pretty`), so it reads back as that (`ofString_pretty`).
-/

namespace ToolNodes.Json

open ToolNodes.Text

/-! ## Values without numbers -/

mutual
/-- No number stands in the value. -/
def Plain : Json → Prop
  | number _ => False
  | array items => PlainItems items
  | object members => PlainMembers members
  | _ => True

/-- `Plain` for each item. -/
def PlainItems : List Json → Prop
  | [] => True
  | v :: items => Plain v ∧ PlainItems items

/-- `Plain` for each member. -/
def PlainMembers : List (String × Json) → Prop
  | [] => True
  | (_, v) :: members => Plain v ∧ PlainMembers members
end

mutual
def height : Json → Nat
  | array items => 1 + heightItems items
  | object members => 1 + heightMembers members
  | _ => 0

def heightItems : List Json → Nat
  | [] => 0
  | v :: items => max (height v) (heightItems items)

def heightMembers : List (String × Json) → Nat
  | [] => 0
  | (_, v) :: members => max (height v) (heightMembers members)
end

mutual
/-- The value as reading makes it: the members of every object by key, the last of several with one
key. -/
def ordered : Json → Json
  | array items => array (orderedItems items)
  | object members => object (Entries.ofList (orderedMembers members))
  | v => v

/-- `ordered` for each item. -/
def orderedItems : List Json → List Json
  | [] => []
  | v :: items => ordered v :: orderedItems items

/-- `ordered` for each member. -/
def orderedMembers : List (String × Json) → List (String × Json)
  | [] => []
  | (key, v) :: members => (key, ordered v) :: orderedMembers members
end

/-! ## What is printed is spelled -/

theorem isSpace_of_mem_newline (level : Nat) :
    ∀ piece ∈ (newline level).map Piece.scalar, isSpace piece = true := by
  intro piece hpiece
  obtain ⟨c, hc, rfl⟩ := List.mem_map.mp hpiece
  rcases List.mem_cons.mp hc with rfl | hc
  · rfl
  · rw [(List.mem_replicate.mp hc).2]
    rfl

variable {d : Nat} {text behind : List Piece} {v : Json}

/-- Items on lines of their own are items. -/
theorem Spells.items_newline {vs : List Json} (h : Spells d (.value v) text)
    (hmore : Spells d (.moreItems vs) behind) (level : Nat) :
    Spells d (.items (v :: vs)) ((newline level).map .scalar ++ (text ++ behind)) :=
  (Spells.items h hmore).behind_gap trivial (isSpace_of_mem_newline level)

/-- Members on lines of their own, with a space behind each colon, are members. -/
theorem Spells.members_newline {ms : List (String × Json)} (key : String)
    (h : Spells d (.value v) text) (hmore : Spells d (.moreMembers ms) behind) (level : Nat) :
    Spells d (.members ((key, v) :: ms))
      ((newline level).map .scalar ++
        ((quote key).map .scalar ++ (.scalar ':' :: .scalar ' ' :: text) ++ behind)) := by
  have hspace : Spells d (.value v) (.scalar ' ' :: text) := .space rfl trivial h
  have hmember := Spells.member (contents_escaped key.toList)
    (fun _ hpiece => absurd hpiece List.not_mem_nil) hspace
  have hmembers := (Spells.members hmember hmore).behind_gap trivial (isSpace_of_mem_newline level)
  rw [map_quote]
  exact hmembers

mutual
/-- **A value without numbers is printed as it is spelled**, with the members of objects in order. -/
theorem spells_pretty : ∀ (v : Json) {d : Nat} (level : Nat), Plain v → height v ≤ d →
    Spells d (.value (ordered v)) ((prettyChars level v).map .scalar)
  | .null, d, level, _, _ => by
      have hword : (['n', 'u', 'l', 'l'], Json.null) ∈ literals := by simp [literals]
      exact Spells.literal hword
  | .bool true, d, level, _, _ => by
      have hword : (['t', 'r', 'u', 'e'], Json.bool true) ∈ literals := by simp [literals]
      exact Spells.literal hword
  | .bool false, d, level, _, _ => by
      have hword : (['f', 'a', 'l', 's', 'e'], Json.bool false) ∈ literals := by simp [literals]
      exact Spells.literal hword
  | .number _, _, _, hv, _ => hv.elim
  | .string t, d, level, _, _ => by
      rw [prettyChars, map_quote]
      exact Spells.string (contents_escaped t.toList)
  | .array _, 0, _, _, hd => by simp [height] at hd
  | .array [], d + 1, level, _, _ => Spells.array Spells.noItems
  | .array (v :: more), d + 1, level, ⟨hv, hmore⟩, hd => by
      simp only [height, heightItems] at hd
      have hfirst : Spells d (.value (ordered v)) _ := spells_pretty v (level + 1) hv (by omega)
      have hrest : Spells d (.moreItems (orderedItems more)) _ :=
        spells_prettyItems more (level + 1) level hmore (by omega)
      have harray := Spells.array (hfirst.items_newline hrest (level + 1))
      simpa [prettyChars, ordered, orderedItems] using harray
  | .object _, 0, _, _, hd => by simp [height] at hd
  | .object [], d + 1, level, _, _ => Spells.object Spells.noMembers
  | .object ((key, v) :: more), d + 1, level, ⟨hv, hmore⟩, hd => by
      simp only [height, heightMembers] at hd
      have hfirst : Spells d (.value (ordered v)) _ := spells_pretty v (level + 1) hv (by omega)
      have hrest : Spells d (.moreMembers (orderedMembers more)) _ :=
        spells_prettyMembers more (level + 1) level hmore (by omega)
      have hobject := Spells.object (hfirst.members_newline key hrest (level + 1))
      simpa [prettyChars, ordered, orderedMembers] using hobject

theorem spells_prettyItems : ∀ (more : List Json) {d : Nat} (level below : Nat), PlainItems more →
    heightItems more ≤ d →
    Spells d (.moreItems (orderedItems more))
      ((prettyItems level more).map .scalar ++ ((newline below).map .scalar ++ [.scalar ']']))
  | [], d, level, below, _, _ =>
      Spells.endItems.behind_gap trivial (isSpace_of_mem_newline below)
  | v :: more, d, level, below, ⟨hv, hmore⟩, hd => by
      simp only [heightItems] at hd
      have hfirst : Spells d (.value (ordered v)) _ := spells_pretty v level hv (by omega)
      have hrest : Spells d (.moreItems (orderedItems more)) _ :=
        spells_prettyItems more level below hmore (by omega)
      have hnext := Spells.nextItem (hfirst.items_newline hrest level)
      simpa [prettyItems, orderedItems] using hnext

theorem spells_prettyMembers : ∀ (more : List (String × Json)) {d : Nat} (level below : Nat),
    PlainMembers more → heightMembers more ≤ d →
    Spells d (.moreMembers (orderedMembers more))
      ((prettyMembers level more).map .scalar ++ ((newline below).map .scalar ++ [.scalar '}']))
  | [], d, level, below, _, _ =>
      Spells.endMembers.behind_gap trivial (isSpace_of_mem_newline below)
  | (key, v) :: more, d, level, below, ⟨hv, hmore⟩, hd => by
      simp only [heightMembers] at hd
      have hfirst : Spells d (.value (ordered v)) _ := spells_pretty v level hv (by omega)
      have hrest : Spells d (.moreMembers (orderedMembers more)) _ :=
        spells_prettyMembers more level below hmore (by omega)
      have hnext := Spells.nextMember (hfirst.members_newline key hrest level)
      simpa [prettyMembers, orderedMembers] using hnext
end

/-! ## Texts -/

/-- **Pretty JSON reads back.** -/
theorem ofString_pretty {v : Json} (hv : Plain v) (hh : height v ≤ maxDepth) :
    ofString v.pretty = .ok (ordered v) := by
  unfold ofString piecesOf pretty
  rw [String.toList_ofList]
  exact ofPieces_eq_ok_iff.mpr ⟨_, [], (List.append_nil _).symm, spells_pretty v 0 hv hh,
    fun _ hpiece => absurd hpiece List.not_mem_nil⟩

end ToolNodes.Json
