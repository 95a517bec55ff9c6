import OperatorCalculus.Proofs.Rule.Grouping
import OperatorCalculus.Proofs.Text.Spelling
import OperatorCalculus.Report.Listing

namespace OperatorCalculus

-- A value that is shown as a text. Only a string with a half that stands alone is not.
def Json.Showable (v : Json) : Prop := Spelling.Whole v.display

structure Record.Showable (r : Record) : Prop where
  id : r.id.Showable
  category : r.category.Showable
  left : r.left.Showable
  right : r.right.Showable

theorem Json.showable_of_sameHeading {u v : Json} (same : sameHeading u v = true)
    (showable : v.Showable) : u.Showable := by
  cases u with
  | torn units =>
    have none : headingNumber? (.torn units) = none := rfl
    cases number : headingNumber? v with
    | some n => simp [sameHeading, none, number] at same
    | none => rwa [((sameHeading_of_no_number none number).1 same).1]
  | str t => exact Spelling.whole_ofText t
  | _ => exact Spelling.whole_ofText _

namespace Report

open Spelling

variable {κ α : Type} {heading : κ → Spelling} {row : α → Spelling}
  {groups : Listing.Groups κ Text α} {counts : List (Text × Nat)}

theorem whole_sidesLine {id left right : Spelling} :
    Whole (sidesLine id left right) ↔ Whole id ∧ Whole left ∧ Whole right := by
  simp only [sidesLine, whole_append, whole_ofText, true_and, and_true, and_assoc]

theorem whole_headingLine {h : Spelling} : Whole (headingLine h) ↔ Whole h := by
  have parts : headingLine h = ofText ['\n', '['] ++ h ++ ofText [']'] := rfl
  simp only [parts, whole_append, whole_ofText, true_and, and_true]

theorem whole_texts (lines : List Text) : ∀ line ∈ lines.map ofText, Whole line :=
  List.forall_mem_map.2 fun t _ => whole_ofText t

theorem whole_typeLines {byType : Text × List α} :
    (∀ line ∈ typeLines row byType, Whole line) ↔ ∀ e ∈ byType.2, Whole (row e) := by
  rw [typeLines, List.forall_mem_cons, List.forall_mem_map]
  exact and_iff_right (whole_ofText _)

theorem whole_categoryLines {g : κ × List (Text × List α)} :
    (∀ line ∈ categoryLines heading row g, Whole line) ↔
      Whole (heading g.1) ∧ ∀ b ∈ g.2, ∀ e ∈ b.2, Whole (row e) := by
  rw [categoryLines, List.forall_mem_cons, List.forall_mem_flatMap, whole_headingLine]
  exact and_congr_right' (forall₂_congr fun _ _ => whole_typeLines)

theorem whole_listing : (∀ line ∈ listing heading row groups counts, Whole line) ↔
    (∀ g ∈ groups, Whole (heading g.1)) ∧ ∀ e ∈ Listing.filed groups, Whole (row e) := by
  rw [listing, List.forall_mem_append, List.forall_mem_append, List.forall_mem_flatMap,
    List.forall_mem_singleton]
  simp only [whole_categoryLines, Listing.filed, List.forall_mem_flatMap, forall_and]
  constructor
  · intro whole
    exact whole.1.2
  · intro inner
    exact ⟨⟨whole_texts _, inner⟩, whole_ofText ruler⟩

variable {rs : List Record} {filed : Listing.Groups Heading Text Record}

theorem grouped_of_group (grouped : RecordListing.group rs = .ok filed) :
    Listing.Grouped (fun r : Record => Heading.mk r.category) Record.type rs filed := by
  rw [RecordListing.group] at grouped
  split at grouped
  · next all =>
    have heads := List.all_eq_true.1 all
    have own : ∀ r ∈ rs, (Heading.mk r.category == Heading.mk r.category) = true :=
      fun r member => Heading.beq_self (heads r member)
    rw [← Except.ok.inj grouped]
    exact Listing.grouped own Record.type
  · cases grouped

-- Records of one heading share the first of their categories.
theorem showable_headings (grouped : RecordListing.group rs = .ok filed) :
    (∀ g ∈ filed, g.1.value.Showable) ↔ ∀ r ∈ rs, r.category.Showable := by
  have kept := grouped_of_group grouped
  constructor
  · intro shown r member
    obtain ⟨k, inKeys, same⟩ := kept.categories.each ⟨r.category⟩ (List.mem_map_of_mem member)
    obtain ⟨g, inGroups, rfl⟩ := List.mem_map.1 inKeys
    exact Json.showable_of_sameHeading same (shown g inGroups)
  · intro shown g inGroups
    have first := kept.categories.first g.1 (List.mem_map_of_mem inGroups)
    obtain ⟨r, member, same⟩ := List.mem_map.1 (List.mem_of_getElem? first)
    rw [← same]
    exact shown r member

theorem whole_records (grouped : RecordListing.group rs = .ok filed) :
    (∀ line ∈ records filed (RecordListing.counts rs), Whole line) ↔ ∀ r ∈ rs, r.Showable := by
  have headings := showable_headings grouped
  rw [records, whole_listing]
  simp only [(grouped_of_group grouped).once.mem_iff, whole_sidesLine]
  constructor
  · intro shown r member
    obtain ⟨id, left, right⟩ := shown.2 r member
    exact ⟨id, headings.1 shown.1 r member, left, right⟩
  · intro shown
    refine ⟨headings.2 fun r member => (shown r member).category, fun r member => ?_⟩
    exact ⟨(shown r member).id, (shown r member).left, (shown r member).right⟩

end Report
end OperatorCalculus
