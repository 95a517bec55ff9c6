import OperatorCalculus.Proofs.Json.Layout
import OperatorCalculus.Proofs.Text.Lines
import OperatorCalculus.Rule.File

namespace OperatorCalculus

namespace Json

theorem named_nodup {members : List (Text × Json)} (distinct : (members.map Prod.fst).Nodup) :
    ((named members).map Prod.fst).Nodup := by
  have names : (named members).map Prod.fst = (members.map Prod.fst).map Spelling.ofText := by
    simp [named]
  rw [names]
  exact List.Pairwise.map Spelling.ofText (fun _ _ differ same => differ (Spelling.ofText_injective same))
    distinct

theorem member?_of_mem {members : List (Text × Json)} {key : Text} {v : Json}
    (distinct : (members.map Prod.fst).Nodup) (member : (key, v) ∈ members) :
    member? key (named members) = some v := by
  induction members with
  | nil => simp at member
  | cons m rest ih =>
    obtain ⟨k, w⟩ := m
    rw [List.map_cons, List.nodup_cons] at distinct
    rw [named, List.map_cons, member?]
    rcases List.mem_cons.1 member with same | later
    · cases same
      simp
    · have other : (Spelling.ofText k == Spelling.ofText key) = false := by
        rw [beq_eq_false_iff_ne]
        intro same
        exact distinct.1 (List.mem_map.2 ⟨(key, v), later, (Spelling.ofText_injective same).symm⟩)
      rw [other]
      exact ih distinct.2 later

theorem member?_of_not_mem {members : List (Text × Json)} {key : Text}
    (absent : key ∉ members.map Prod.fst) : member? key (named members) = none := by
  induction members with
  | nil => rfl
  | cons m rest ih =>
    rw [List.map_cons, List.mem_cons, not_or] at absent
    have other : (Spelling.ofText m.1 == Spelling.ofText key) = false := by
      rw [beq_eq_false_iff_ne]
      exact fun same => absent.1 (Spelling.ofText_injective same).symm
    rw [named, List.map_cons, member?, other]
    exact ih absent.2

theorem member?_append (key : Text) (first later : List (Text × Json)) :
    member? key (named (first ++ later)) =
      (member? key (named first)).or (member? key (named later)) := by
  induction first with
  | nil => rfl
  | cons m rest ih =>
    obtain ⟨k, v⟩ := m
    rw [List.cons_append, named, named, List.map_cons, List.map_cons, member?, member?]
    split
    · rfl
    · exact ih

end Json

namespace Record

def names : List Text := Member.required ++ [Member.sectionTitle, Member.subsectionTitle]

theorem names_distinct : names.Nodup := by decide

def titleMembers (key : Text) : Option Json → List (Text × Json)
  | some v => if v.isHollow then [] else [(key, v)]
  | none => []

theorem toMembers_eq (r : Record) : r.toMembers =
    Member.required.zip [r.id, r.name, .str r.type, r.category, r.description, r.left, r.right] ++
      titleMembers Member.sectionTitle r.sectionTitle ++
      titleMembers Member.subsectionTitle r.subsectionTitle := rfl

theorem titleMembers_names (key : Text) (title : Option Json) :
    ((titleMembers key title).map Prod.fst).Sublist [key] := by
  rcases title with _ | v
  · simp [titleMembers]
  · simp only [titleMembers]
    split <;> simp

theorem toMembers_nodup (r : Record) : (r.toMembers.map Prod.fst).Nodup := by
  have all : (r.toMembers.map Prod.fst).Sublist names := by
    rw [toMembers_eq, List.map_append, List.map_append, List.append_assoc]
    exact (List.Sublist.refl _).append ((titleMembers_names _ _).append (titleMembers_names _ _))
  exact names_distinct.sublist all

def Held (title : Option Json) : Prop := ∀ v, title = some v → v.isHollow = false

theorem member?_titleMembers {key : Text} {title : Option Json} (held : Held title) :
    Json.member? key (Json.named (titleMembers key title)) = title := by
  rcases title with _ | v
  · rfl
  · simp [titleMembers, held v rfl, Json.named, Json.member?]

theorem member?_titleMembers_other {key other : Text} (title : Option Json) (differ : key ≠ other) :
    Json.member? key (Json.named (titleMembers other title)) = none := by
  apply Json.member?_of_not_mem
  intro there
  exact differ (List.mem_singleton.1 ((titleMembers_names other title).subset there))

theorem optional_of_held {members : List (Spelling × Json)} {key : Text} {title : Option Json}
    (found : Json.member? key members = title) (held : Held title) : optional key members = title := by
  rw [optional, found]
  rcases title with _ | v
  · rfl
  · simp [held v rfl]

theorem ofJson_toJson (r : Record) (known : r.type ∈ Rule.types) (titled : Held r.sectionTitle)
    (subtitled : Held r.subsectionTitle) : ofJson r.toJson = .ok r := by
  have each : ∀ m ∈ Member.required.zip
      [r.id, r.name, .str r.type, r.category, r.description, r.left, r.right],
      Json.member? m.1 (Json.named r.toMembers) = some m.2 := by
    intro m member
    apply Json.member?_of_mem (toMembers_nodup r)
    rw [toMembers_eq]
    simp [member]
  simp only [Member.required, List.zip_cons_cons, List.zip_nil_right, List.forall_mem_cons] at each
  obtain ⟨id, name, type, category, description, left, right, _⟩ := each
  have title : Json.member? Member.sectionTitle (Json.named r.toMembers) = r.sectionTitle := by
    rw [toMembers_eq, Json.member?_append, Json.member?_append,
      Json.member?_of_not_mem (show Member.sectionTitle ∉ Member.required by decide),
      member?_titleMembers titled, member?_titleMembers_other _ (by decide)]
    simp
  have subtitle : Json.member? Member.subsectionTitle (Json.named r.toMembers) = r.subsectionTitle := by
    rw [toMembers_eq, Json.member?_append, Json.member?_append,
      Json.member?_of_not_mem (show Member.subsectionTitle ∉ Member.required by decide),
      member?_titleMembers_other _ (by decide), member?_titleMembers subtitled]
    simp
  have absent : Member.required.filter (fun key => (Json.member? key (Json.named r.toMembers)).isNone) = [] := by
    simp [Member.required, id, name, type, category, description, left, right]
  simp only [toJson, ofJson, ofMembers, absent, List.isEmpty_nil, if_true, id, name, type, category,
    description, left, right, optional_of_held title titled, optional_of_held subtitle subtitled,
    Option.getD_some, List.contains_iff_mem.2 known]

end Record

namespace Rule

-- What a file can say of a rule.
structure Fileable (r : Rule) : Prop where
  known : r.type ∈ types
  titled : r.sectionTitle ≠ some []
  subtitled : r.subsectionTitle ≠ some []

theorem fileable_iff {r : Rule} :
    r.Fileable ↔ r.type ∈ types ∧ r.sectionTitle ≠ some [] ∧ r.subsectionTitle ≠ some [] :=
  ⟨fun ⟨known, titled, subtitled⟩ => ⟨known, titled, subtitled⟩,
    fun ⟨known, titled, subtitled⟩ => ⟨known, titled, subtitled⟩⟩

instance (r : Rule) : Decidable r.Fileable := decidable_of_iff _ fileable_iff.symm

theorem held_of_title {title : Option Text} (titled : title ≠ some []) :
    Record.Held (title.map .str) := by
  intro v there
  obtain ⟨t, rfl, rfl⟩ := Option.map_eq_some_iff.1 there
  have filled : t ≠ [] := fun nothing => titled (by rw [nothing])
  simp [Json.isHollow, filled]

theorem ofJson_toJson {r : Rule} (fileable : r.Fileable) :
    Record.ofJson r.toJson = .ok r.toRecord :=
  Record.ofJson_toJson r.toRecord fileable.known (held_of_title fileable.titled)
    (held_of_title fileable.subtitled)

theorem mapM_toRule?_toRecord (rules : List Rule) :
    (rules.map toRecord).mapM Record.toRule? = some rules := by
  induction rules with
  | nil => rfl
  | cons r rest ih => simp [List.mapM_cons, toRule?_toRecord, ih]

theorem titleMembers_text {key : Text} {title : Option Text} {m : Text × Json}
    (member : m ∈ Record.titleMembers key (title.map .str)) : ∃ t, m.2 = .str t := by
  rcases title with _ | t
  · simp [Record.titleMembers] at member
  · simp only [Option.map_some, Record.titleMembers] at member
    split at member
    · simp at member
    · rw [List.mem_singleton.1 member]
      exact ⟨t, rfl⟩

theorem toMembers_text {r : Rule} {m : Text × Json} (member : m ∈ r.toRecord.toMembers) :
    ∃ t, m.2 = .str t := by
  rw [Record.toMembers_eq, List.mem_append, List.mem_append] at member
  rcases member with (required | title) | subtitle
  · have texts : m.2 ∈ [r.id, r.name, r.type, r.category, r.description, r.left, r.right].map
        Json.str := (List.of_mem_zip required).2
    obtain ⟨t, _, same⟩ := List.mem_map.1 texts
    exact ⟨t, same.symm⟩
  · exact titleMembers_text title
  · exact titleMembers_text subtitle

theorem toJson_textual (r : Rule) {limit depth : Nat} (room : depth < limit) :
    Json.Textual limit depth r.toJson := by
  refine ⟨room, Json.named_nodup (Record.toMembers_nodup _), Json.membersTextual_iff.2 ?_⟩
  intro m member
  obtain ⟨own, inside, rfl⟩ := List.mem_map.1 member
  obtain ⟨t, same⟩ := toMembers_text inside
  refine ⟨⟨own.1, rfl⟩, ?_⟩
  rw [same]
  trivial

end Rule

namespace RuleFile

theorem readRecords_map {α : Type} {written : α → Json} {kept : α → Record} {entries : List α}
    (each : ∀ a ∈ entries, Record.ofJson (written a) = .ok (kept a)) :
    readRecords (entries.map written) = .ok (entries.map kept) := by
  induction entries with
  | nil => rfl
  | cons a rest ih =>
    simp only [List.map_cons, readRecords, each a (by simp),
      ih fun b member => each b (List.mem_cons_of_mem a member)]

theorem rules_textual {limit : Nat} (room : 2 ≤ limit) (rules : List Rule) :
    Json.Textual limit 0 (.arr (rules.map Rule.toJson)) := by
  refine ⟨by omega, Json.itemsTextual_iff.2 fun v member => ?_⟩
  obtain ⟨r, _, rfl⟩ := List.mem_map.1 member
  exact r.toJson_textual room

theorem read_writeRules {limit : Nat} (room : 2 ≤ limit) {rules : List Rule}
    (fileable : ∀ r ∈ rules, r.Fileable) :
    read limit (writeRules rules) = .ok (rules.map Rule.toRecord) := by
  rw [read, writeRules, layout, Json.read_layout (rules_textual room rules)]
  simp only [entries?]
  rw [readRecords_map fun r member => Rule.ofJson_toJson (fileable r member)]

theorem unifyLineEnds_writeRules (rules : List Rule) :
    Text.unifyLineEnds (writeRules rules) = writeRules rules := by
  apply Text.unifyLineEnds_of_no_return
  have single := Json.layout_single_line _ 0 (rules_textual (Nat.le_refl 2) rules)
  simp [writeRules, layout, single]

end RuleFile
end OperatorCalculus
