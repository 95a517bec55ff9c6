import OperatorCalculus.Latex.Module
import OperatorCalculus.Proofs.Expression.Numbering
import OperatorCalculus.Proofs.Latex.Filing
import OperatorCalculus.Proofs.Latex.Literal
import OperatorCalculus.Proofs.Text.Separator

namespace OperatorCalculus

namespace Naming

open Literal

theorem not_isMark_of_isSlugChar {c : Char} (slugChar : isSlugChar c = true) : isMark c = false := by
  cases mark : isMark c with
  | false => rfl
  | true =>
    rcases isMark_iff.1 mark with rfl | rfl
    · cases slugChar
    · cases slugChar

theorem mem_hyphenate {c : Char} {t : Text} (member : c ∈ hyphenate t) :
    isSlugChar c = true ∨ c = '-' := by
  induction t with
  | nil => cases member
  | cons d t ih =>
    unfold hyphenate at member
    split at member
    · next slugChar =>
      cases List.mem_cons.1 member with
      | inl first =>
        rw [first]
        exact .inl slugChar
      | inr later => exact ih later
    · split at member
      · next same =>
        rw [← same] at member
        exact ih member
      · cases List.mem_cons.1 member with
        | inl first => exact .inr first
        | inr later => exact ih later

theorem mem_slug {c : Char} {path : Text} (member : c ∈ slug path) :
    isSlugChar c = true ∨ c = '-' := by
  unfold slug trimHyphens at member
  apply mem_hyphenate (t := Text.lower (stem path))
  exact List.dropWhile_subset _ (List.mem_reverse.1 (List.dropWhile_subset _ (List.mem_reverse.1 member)))

theorem not_isMark_of_mem_id {c : Char} {path left right : Text} {index : Nat}
    (member : c ∈ id path index left right) : isMark c = false := by
  have slugged : isSlugChar c = true ∨ c = '-' := by
    unfold id at member
    rcases List.mem_append.1 member with front | back
    · rcases List.mem_append.1 front with inSlug | inIndex
      · exact mem_slug inSlug
      · cases List.mem_cons.1 inIndex with
        | inl hyphen => exact .inr hyphen
        | inr digits =>
          have digit := (Operand.isNumberWord_iff.1 (Text.isNumberWord_ofNat index)).2 c digits
          exact .inl (by rw [isSlugChar, digit, Bool.or_true])
    · cases List.mem_cons.1 back with
      | inl hyphen => exact .inr hyphen
      | inr inDigest => exact .inl (List.mem_filter.1 (List.mem_of_mem_take inDigest)).2
  cases slugged with
  | inl slugChar => exact not_isMark_of_isSlugChar slugChar
  | inr hyphen =>
    rw [hyphen]
    rfl

end Naming

namespace DataModule

open Literal

-- How a field writes its text, and the texts that its literal gives back.
inductive Manner where
  | plain
  | quotes
  | backslashes
deriving DecidableEq, Repr

namespace Manner

def write : Manner → Text → Text
  | .plain, t => t
  | .quotes, t => escapeQuotes t
  | .backslashes, t => Naming.escapeBackslashes t

def Admits : Manner → Text → Prop
  | .plain, t => ∀ c ∈ t, isMark c = false
  | .quotes, t => '\\' ∉ t
  | .backslashes, t => '\x27' ∉ t

theorem read_write_iff (e : Escapes) (m : Manner) (t after : Text) :
    read e (m.write t ++ '\x27' :: after) = some (t, after) ↔ m.Admits t := by
  cases m with
  | plain => exact read_plain_iff t after
  | quotes => exact read_replaceChar_iff (fun c => isMark_iff) (by decide) t after
  | backslashes => exact read_replaceChar_iff (fun c => isMark_iff.trans Or.comm) (by decide) t after

end Manner

structure QuotedField where
  name : String
  manner : Manner
  value : Text
deriving DecidableEq, Repr

namespace QuotedField

def written (f : QuotedField) : Text := f.manner.write f.value

def opening (f : QuotedField) : Text := f.name.toList ++ ": '".toList

end QuotedField

def quotedFields (r : Rule) : List QuotedField :=
  [⟨"id", .plain, r.id⟩, ⟨"name", .quotes, r.name⟩, ⟨"description", .quotes, r.description⟩,
    ⟨"leftSide", .backslashes, r.left⟩, ⟨"rightSide", .backslashes, r.right⟩] ++
  r.sectionTitle.toList.map (⟨"section", .quotes, ·⟩) ++
  r.subsectionTitle.toList.map (⟨"subsection", .quotes, ·⟩)

theorem mem_titleField (name : String) {title : Option Text} {t : Text} (some_ : title = some t)
    (filled : title ≠ some []) : field name (escapeQuotes t) ∈ titleField name title := by
  subst some_
  cases t with
  | nil => exact absurd rfl filled
  | cons c t => exact List.mem_singleton.2 rfl

theorem entry_of_quoted {r : Rule} {f : QuotedField} (fileable : r.Fileable)
    (quoted : f ∈ quotedFields r) :
    ∃ front back, entry r = front ++ (f.opening ++ (f.written ++ '\x27' :: back)) := by
  have line : ∃ front back, entry r = front ++ (field f.name f.written ++ back) := by
    unfold entry
    apply Text.join_of_mem
    unfold quotedFields at quoted
    rcases List.mem_append.1 quoted with earlier | subsection_
    · rcases List.mem_append.1 earlier with own | section_
      · simp only [List.mem_cons, List.not_mem_nil, or_false] at own
        apply List.mem_append_left
        apply List.mem_append_left
        apply List.mem_append_left
        rcases own with rfl | rfl | rfl | rfl | rfl
        · exact List.mem_of_getElem? (i := 1) rfl
        · exact List.mem_of_getElem? (i := 2) rfl
        · exact List.mem_of_getElem? (i := 5) rfl
        · exact List.mem_of_getElem? (i := 6) rfl
        · exact List.mem_of_getElem? (i := 7) rfl
      · obtain ⟨t, some_, rfl⟩ := List.mem_map.1 section_
        have here := mem_titleField "section" (Option.mem_toList.1 some_)
          fileable.titled
        exact List.mem_append_left _ (List.mem_append_left _ (List.mem_append_right _ here))
    · obtain ⟨t, some_, rfl⟩ := List.mem_map.1 subsection_
      have here := mem_titleField "subsection" (Option.mem_toList.1 some_)
        fileable.subtitled
      exact List.mem_append_left _ (List.mem_append_right _ here)
  obtain ⟨front, back, place⟩ := line
  refine ⟨front ++ "    ".toList, ',' :: back, ?_⟩
  rw [place]
  delta field QuotedField.opening
  simp only [List.append_assoc]
  rfl

theorem render_of_mem {rules : List Rule} {r : Rule} (member : r ∈ rules) :
    ∃ before after, render rules = before ++ (entry r ++ after) := by
  obtain ⟨before, after, place⟩ := Text.join_of_mem ['\n'] (List.mem_map_of_mem (f := entry) member)
  refine ⟨header ++ before, after ++ footer, ?_⟩
  rw [render, place]
  simp only [List.append_assoc]

theorem Manner.admits_id {r : Rule} {document path : Text} (filed : r ∈ Source.rules document path) :
    Manner.plain.Admits r.id := by
  apply Source.rules_filed (P := fun r => Manner.plain.Admits r.id) _ document r filed
  intro context index left right c member
  exact Naming.not_isMark_of_mem_id member

-- Every field of every rule stands in the module, and its literal is closed where the
-- renderer closes it and gives back the text exactly when the text holds no mark that its
-- field does not escape.
theorem fields_read_iff (e : Escapes) {document path : Text} {r : Rule} {f : QuotedField}
    (filed : r ∈ Source.rules document path) (quoted : f ∈ quotedFields r) :
    (∃ before front back after,
      render (Source.rules document path) = before ++ (entry r ++ after) ∧
      entry r = front ++ (f.opening ++ (f.written ++ '\x27' :: back)) ∧
      (read e (f.written ++ '\x27' :: (back ++ after)) = some (f.value, back ++ after) ↔
        f.manner.Admits f.value)) ∧
    (f.name = "id" → f.manner.Admits f.value) := by
  obtain ⟨before, after, whole⟩ := render_of_mem filed
  obtain ⟨front, back, place⟩ := entry_of_quoted (Source.rules_fileable document path r filed) quoted
  refine ⟨⟨before, front, back, after, whole, place, f.manner.read_write_iff e f.value _⟩, ?_⟩
  intro named
  simp only [quotedFields, List.mem_append, List.mem_cons, List.not_mem_nil, or_false,
    List.mem_map] at quoted
  rcases quoted with (((rfl | rfl | rfl | rfl | rfl) | ⟨_, _, rfl⟩) | ⟨_, _, rfl⟩)
  · exact Manner.admits_id filed
  all_goals simp at named

theorem fields_read_iff_quoted_heading :
    let e : Escapes := ⟨fun t => t.head?.map fun c => (some c, 1), fun _ => rfl, fun _ => rfl, by
      intro t denoted used escaped
      obtain ⟨c, _, same⟩ := Option.map_eq_some_iff.1 escaped
      rw [← (Prod.mk.inj same).2]
      exact Nat.one_pos⟩
    let document : Text := "\\section\x7bPeano's unit\x7d\n\\[,i \\Pu, \\Rq ,i \\Os,\\]".toList
    let r : Rule := ⟨"a-0-iuis".toList, "Peano's unit".toList, Rule.theoremType, "operators".toList,
      "Peano's unit".toList, ",i \\Pu,".toList, ",i \\Os,".toList, some "Peano's unit".toList, none⟩
    let f : QuotedField := ⟨"section", .quotes, "Peano's unit".toList⟩
    r ∈ Source.rules document "a.tex".toList ∧ f ∈ quotedFields r ∧ f.manner.Admits f.value ∧
      ∃ before front back after,
        render (Source.rules document "a.tex".toList) = before ++ (entry r ++ after) ∧
        entry r = front ++ (f.opening ++ (f.written ++ '\x27' :: back)) ∧
        read e (f.written ++ '\x27' :: (back ++ after)) = some (f.value, back ++ after) := by
  intro e document r f
  have filed : r ∈ Source.rules document "a.tex".toList := by decide +kernel
  have quoted : f ∈ quotedFields r := by decide
  have admitted : f.manner.Admits f.value := by
    show '\\' ∉ "Peano's unit".toList
    decide
  obtain ⟨⟨before, front, back, after, whole, place, reads⟩, _⟩ := fields_read_iff e filed quoted
  exact ⟨filed, quoted, admitted, before, front, back, after, whole, place, reads.2 admitted⟩

-- Without a heading the name is cut out of the sides, and with them their backslashes,
-- which the field for the name does not escape.
theorem not_fields_read :
    let rules := Source.rules "\\[,i \\Pu, \\Rq ,i \\Os,\\]".toList "a.tex".toList
    ∃ r ∈ rules, ∃ f ∈ quotedFields r, ∃ before front back after,
      render rules = before ++ (entry r ++ after) ∧
      entry r = front ++ (f.opening ++ (f.written ++ '\x27' :: back)) ∧
      ∀ e, read e (f.written ++ '\x27' :: (back ++ after)) ≠ some (f.value, back ++ after) := by
  intro rules
  let r : Rule := ⟨"a-0-iuis".toList, "i \\Pu ⟺ i \\Os".toList, Rule.theoremType, "operators".toList,
    [], ",i \\Pu,".toList, ",i \\Os,".toList, none, none⟩
  have filed : r ∈ rules := by decide +kernel
  have quoted : (⟨"name", .quotes, r.name⟩ : QuotedField) ∈ quotedFields r := by decide
  obtain ⟨before, after, whole⟩ := render_of_mem filed
  obtain ⟨front, back, place⟩ := entry_of_quoted (by decide) quoted
  refine ⟨r, filed, _, quoted, before, front, back, after, whole, place, ?_⟩
  intro e found
  have backslash : '\\' ∈ r.name := by decide
  exact (Manner.read_write_iff e .quotes r.name _).1 found backslash

end DataModule
end OperatorCalculus
