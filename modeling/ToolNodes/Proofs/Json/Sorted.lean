import ToolNodes.Proofs.Json.Grammar
import ToolNodes.Proofs.Table

/-!
# What is read is sorted

The reader puts the members of every object in the order of their keys, and of several with one key it
keeps the last. So each object of a value that is read lists its members by key without repetition
(`sorted_of_ofPieces`), whatever the order in the text.
-/

namespace ToolNodes.Json

open Text

variable {ms : List (String × Json)} {key : String} {v : Json}

theorem membersSorted_iff : MembersSorted ms ↔ ∀ m ∈ ms, m.2.Sorted := by
  induction ms with
  | nil => simp [MembersSorted]
  | cons m ms ih =>
      obtain ⟨k, w⟩ := m
      rw [MembersSorted, ih, List.forall_mem_cons]

theorem allSorted_iff {vs : List Json} : AllSorted vs ↔ ∀ w ∈ vs, w.Sorted := by
  induction vs with
  | nil => simp [AllSorted]
  | cons w vs ih => rw [AllSorted, ih, List.forall_mem_cons]

theorem object_of_get? {doc : Json} (h : doc.get? key = some v) :
    ∃ members, doc = .object members ∧ Entries.get? key members = some v := by
  cases doc with
  | object members => exact ⟨members, rfl, h⟩
  | null | bool _ | number _ | string _ | array _ => exact absurd h (by simp [get?])

theorem object_of_isObject (h : v.isObject = true) : ∃ members, v = .object members := by
  cases v with
  | object members => exact ⟨members, rfl⟩
  | null | bool _ | number _ | string _ | array _ => exact absurd h (by simp [isObject, members?])

theorem sorted_of_get? {doc : Json} (hdoc : doc.Sorted) (h : doc.get? key = some v) : v.Sorted := by
  obtain ⟨members, rfl, hget⟩ := object_of_get? h
  rw [Sorted, membersSorted_iff] at hdoc
  exact hdoc.2 _ (Entries.mem_of_get?_eq_some hget)

/-- The keys of an object inside a sorted value are in order. -/
theorem ordered_of_get? {doc : Json} (hdoc : doc.Sorted) (h : doc.get? key = some (.object ms)) :
    Entries.Ordered ms := by
  have hms := sorted_of_get? hdoc h
  rw [Sorted] at hms
  exact hms.1

/-- Putting a member in its place keeps an object sorted. -/
theorem sorted_insert (hms : Sorted (.object ms)) (hv : v.Sorted) :
    Sorted (.object (Entries.insert key v ms)) := by
  rw [Sorted, membersSorted_iff] at hms ⊢
  refine ⟨Entries.ordered_insert hms.1, ?_⟩
  intro m hm
  rcases Entries.mem_insert hm with rfl | hm
  · exact hv
  · exact hms.2 m hm

theorem sorted_ofList (hms : MembersSorted ms) : Sorted (.object (Entries.ofList ms)) := by
  rw [membersSorted_iff] at hms
  rw [Sorted, membersSorted_iff]
  exact ⟨Entries.ordered_ofList ms, fun m hm => hms m (Entries.mem_of_mem_ofList hm)⟩

def Phrase.Sorted : Phrase → Prop
  | value v => v.Sorted
  | items vs => AllSorted vs
  | moreItems vs => AllSorted vs
  | members ms => MembersSorted ms
  | moreMembers ms => MembersSorted ms
  | member m => m.2.Sorted

theorem Spells.sorted {d : Nat} {ph : Phrase} {text : List Piece} (h : Spells d ph text) :
    ph.Sorted := by
  induction h with
  | space _ _ _ ih => exact ih
  | literal hmem =>
      simp only [literals, List.mem_cons, Prod.mk.injEq, List.not_mem_nil, or_false] at hmem
      rcases hmem with ⟨-, rfl⟩ | ⟨-, rfl⟩ | ⟨-, rfl⟩ <;> trivial
  | number _ => trivial
  | negative _ => trivial
  | string _ => trivial
  | array _ ih => exact ih
  | object _ ih => exact sorted_ofList ih
  | noItems => trivial
  | items _ _ ih ihmore => exact ⟨ih, ihmore⟩
  | endItems => trivial
  | nextItem _ ih => exact ih
  | noMembers => trivial
  | members _ _ ih ihmore => exact ⟨ih, ihmore⟩
  | endMembers => trivial
  | nextMember _ ih => exact ih
  | member _ _ _ ih => exact ih

/-- **Every value that is read is sorted.** -/
theorem sorted_of_ofPieces {s : List Piece} (h : ofPieces s = .ok v) : v.Sorted := by
  obtain ⟨text, gap, -, hspells, -⟩ := ofPieces_eq_ok_iff.mp h
  exact hspells.sorted

theorem sorted_of_ofString {text : String} (h : ofString text = .ok v) : v.Sorted :=
  sorted_of_ofPieces h

theorem sorted_of_ofBytes {bytes : List UInt8} (h : ofBytes bytes = .ok v) : v.Sorted :=
  sorted_of_ofPieces h

end ToolNodes.Json
