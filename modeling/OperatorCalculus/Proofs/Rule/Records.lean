import OperatorCalculus.Rule.File
import OperatorCalculus.Rule.RecordListing

-- Which values are records, what is wrong with those that are not, and which records can be
-- listed. An object says what it lacks; any other value is no object, and that is a mistake
-- of another kind. A record may hold values that only a query or a heading stumbles over.
namespace OperatorCalculus

namespace Record

abbrev Members := List (Spelling × Json)

variable {members : Members} {fault other : RecordFault} {r : Record} {v : Json}

def absent (members : Members) : List Text :=
  Member.required.filter fun key => (Json.member? key members).isNone

structure Decodes (members : Members) : Prop where
  complete : absent members = []
  known : ∃ t ∈ Rule.types, Json.member? Member.type members = some (.str t)

-- What an object that is no record is reported with: the names of all members it lacks,
-- or else its type.
inductive Faulty (members : Members) : RecordFault → Prop where
  | missing (lacking : absent members ≠ []) :
    Faulty members (.missing (Json.member? Member.id members) (absent members))
  | unknownType {id type : Json} (complete : absent members = [])
    (own : Json.member? Member.id members = some id)
    (given : Json.member? Member.type members = some type)
    (unknown : ∀ t ∈ Rule.types, type ≠ .str t) : Faulty members (.unknownType id type)

theorem member_of_complete (complete : absent members = []) (key : Text)
    (required : key ∈ Member.required) :
    Json.member? key members = some ((Json.member? key members).getD .null) := by
  cases found : Json.member? key members with
  | some v => rfl
  | none =>
    have lacking : key ∈ absent members := List.mem_filter.2 ⟨required, by rw [found]; rfl⟩
    rw [complete] at lacking
    cases lacking

structure Keeps (members : Members) (r : Record) : Prop where
  id : Json.member? Member.id members = some r.id
  category : Json.member? Member.category members = some r.category
  left : Json.member? Member.left members = some r.left
  right : Json.member? Member.right members = some r.right

theorem ofMembers_cases (members : Members) :
    (Decodes members ∧ ∃ r, ofMembers members = .ok r ∧ Keeps members r) ∨
    ∃ fault, ofMembers members = .error fault ∧ Faulty members fault := by
  unfold ofMembers
  dsimp only
  split
  · next none =>
    have complete : absent members = [] := List.isEmpty_iff.1 none
    have own := member_of_complete complete Member.id (by decide)
    have given := member_of_complete complete Member.type (by decide)
    split
    · next t same =>
      rw [same] at given
      split
      · next known =>
        left
        refine ⟨⟨complete, t, List.contains_iff_mem.1 known, given⟩, _, rfl, own, ?_, ?_, ?_⟩
        · exact member_of_complete complete Member.category (by decide)
        · exact member_of_complete complete Member.left (by decide)
        · exact member_of_complete complete Member.right (by decide)
      · next unknown =>
        right
        refine ⟨_, rfl, .unknownType complete own given ?_⟩
        intro s inTypes same
        cases same
        exact unknown (List.contains_iff_mem.2 inTypes)
    · next other =>
      right
      refine ⟨_, rfl, .unknownType complete own given ?_⟩
      intro s _ same
      exact other s same
  · next some_ =>
    right
    exact ⟨_, rfl, .missing fun none => some_ (List.isEmpty_iff.2 none)⟩

theorem Faulty.not_decodes (faulty : Faulty members fault) : ¬ Decodes members := by
  intro decodes
  cases faulty with
  | missing lacking => exact lacking decodes.complete
  | unknownType _ _ given unknown =>
    obtain ⟨t, inTypes, known⟩ := decodes.known
    rw [given] at known
    exact unknown t inTypes (Option.some.inj known)

theorem Faulty.unique (first : Faulty members fault) (second : Faulty members other) :
    fault = other := by
  cases first with
  | missing lacking =>
    cases second with
    | missing => rfl
    | unknownType complete => exact absurd complete lacking
  | unknownType complete own given =>
    cases second with
    | missing lacking => exact absurd complete lacking
    | unknownType _ own' given' =>
      rw [own] at own'
      rw [given] at given'
      cases own'
      cases given'
      rfl

theorem ofMembers_error_iff : ofMembers members = .error fault ↔ Faulty members fault := by
  rcases ofMembers_cases members with ⟨decodes, r, made, _⟩ | ⟨f, found, faulty⟩
  · rw [made]
    constructor
    · intro failed
      cases failed
    · intro faulty
      exact absurd decodes faulty.not_decodes
  · rw [found]
    constructor
    · intro same
      cases same
      exact faulty
    · intro other
      rw [faulty.unique other]

theorem ofMembers_ok (made : ofMembers members = .ok r) :
    Decodes members ∧ Keeps members r := by
  rcases ofMembers_cases members with ⟨decodes, r', made', keeps⟩ | ⟨f, found, _⟩
  · rw [made] at made'
    cases made'
    exact ⟨decodes, keeps⟩
  · rw [made] at found
    cases found

def IsObject (v : Json) : Prop := ∃ members, v = .obj members

theorem ofStretches_error (texts : List Text) :
    ofStretches texts = .error .memberless ∨ ofStretches texts = .error .unnamed := by
  unfold ofStretches
  split
  · exact .inl rfl
  · exact .inr rfl

theorem ofJson_of_not_object (other : ¬ IsObject v) :
    ofJson v = .error .memberless ∨ ofJson v = .error .unnamed := by
  cases v with
  | obj members => exact absurd ⟨members, rfl⟩ other
  | str t => exact ofStretches_error _
  | torn units => exact ofStretches_error _
  | arr items =>
    simp only [ofJson]
    split
    · exact .inl rfl
    · exact .inr rfl
  | null => exact .inl rfl
  | bool => exact .inl rfl
  | int => exact .inl rfl
  | real => exact .inl rfl

theorem ofJson_ok_iff : (∃ r, ofJson v = .ok r) ↔ ∃ members, v = .obj members ∧ Decodes members := by
  constructor
  · intro found
    obtain ⟨r, made⟩ := found
    by_cases object : IsObject v
    · obtain ⟨members, rfl⟩ := object
      exact ⟨members, rfl, (ofMembers_ok made).1⟩
    · rcases ofJson_of_not_object object with failed | failed
      · rw [made] at failed
        cases failed
      · rw [made] at failed
        cases failed
  · intro found
    obtain ⟨members, rfl, decodes⟩ := found
    rcases ofMembers_cases members with ⟨_, r, made, _⟩ | ⟨f, _, faulty⟩
    · exact ⟨r, made⟩
    · exact absurd decodes faulty.not_decodes

end Record

namespace RuleFile

variable {vs : List Json} {rs : List Record} {fault : RecordFault}

def IsRecord (v : Json) : Prop := ∃ members, v = .obj members ∧ Record.Decodes members

structure Makes (vs : List Json) (rs : List Record) : Prop where
  each : ∀ v ∈ vs, ∃ r ∈ rs, Record.ofJson v = .ok r
  only : ∀ r ∈ rs, ∃ v ∈ vs, Record.ofJson v = .ok r

theorem Makes.cons {v : Json} {r : Record} (own : Record.ofJson v = .ok r) (makes : Makes vs rs) :
    Makes (v :: vs) (r :: rs) := by
  constructor
  · intro w member
    cases List.mem_cons.1 member with
    | inl same => exact ⟨r, List.mem_cons_self, same ▸ own⟩
    | inr later =>
      obtain ⟨s, there, made⟩ := makes.each w later
      exact ⟨s, List.mem_cons_of_mem r there, made⟩
  · intro s member
    cases List.mem_cons.1 member with
    | inl same => exact ⟨v, List.mem_cons_self, same ▸ own⟩
    | inr later =>
      obtain ⟨w, there, made⟩ := makes.only s later
      exact ⟨w, List.mem_cons_of_mem v there, made⟩

theorem readRecords_of_records (records : ∀ v ∈ vs, IsRecord v) :
    ∃ rs, readRecords vs = .ok rs ∧ Makes vs rs := by
  induction vs with
  | nil => exact ⟨[], rfl, nofun, nofun⟩
  | cons v vs ih =>
    obtain ⟨r, own⟩ := Record.ofJson_ok_iff.2 (records v List.mem_cons_self)
    obtain ⟨rs, read, makes⟩ := ih fun w member => records w (List.mem_cons_of_mem v member)
    exact ⟨r :: rs, by rw [readRecords, own, read], makes.cons own⟩

theorem readRecords_of_fault {before after : List Json} {e : Json}
    (records : ∀ v ∈ before, IsRecord v) (failed : Record.ofJson e = .error fault) :
    readRecords (before ++ e :: after) = .error fault := by
  induction before with
  | nil => rw [List.nil_append, readRecords, failed]
  | cons v before ih =>
    obtain ⟨r, own⟩ := Record.ofJson_ok_iff.2 (records v List.mem_cons_self)
    have later := ih fun w member => records w (List.mem_cons_of_mem v member)
    rw [List.cons_append, readRecords, own, later]

theorem first_other (vs : List Json) : (∀ v ∈ vs, IsRecord v) ∨
    ∃ before e after, vs = before ++ e :: after ∧ (∀ v ∈ before, IsRecord v) ∧ ¬ IsRecord e := by
  induction vs with
  | nil => exact .inl nofun
  | cons v vs ih =>
    by_cases own : IsRecord v
    · rcases ih with all | ⟨before, e, after, rfl, records, other⟩
      · left
        intro w member
        cases List.mem_cons.1 member with
        | inl same => exact same ▸ own
        | inr later => exact all w later
      · right
        refine ⟨v :: before, e, after, rfl, ?_, other⟩
        intro w member
        cases List.mem_cons.1 member with
        | inl same => exact same ▸ own
        | inr later => exact records w later
    · exact .inr ⟨[], v, vs, rfl, nofun, own⟩

end RuleFile

namespace RecordListing

variable {query : Text} {vs : List Json} {records : List Record} {f : Filter} {r : Record}

def Stumbles (query : Text) (vs : List Json) : Prop :=
  ∃ before v after, vs = before ++ v :: after ∧ v.stretches? = none ∧
    ∀ w ∈ before, ∃ ts, w.stretches? = some ts ∧ ts.any (Filter.mentions query) = false

theorem anyMentions_error_iff (query : Text) (vs : List Json) :
    (∃ fault, anyMentions query vs = .error fault) ↔ Stumbles query vs := by
  induction vs with
  | nil =>
    constructor
    · intro failed
      obtain ⟨_, failed⟩ := failed
      cases failed
    · intro stumbles
      obtain ⟨before, v, after, same, _⟩ := stumbles
      simp at same
  | cons v vs ih =>
    cases text : v.stretches? with
    | none =>
      constructor
      · intro _
        exact ⟨[], v, vs, rfl, text, nofun⟩
      · intro _
        exact ⟨.notText, by simp [anyMentions, text]⟩
    | some ts =>
      cases hit : ts.any (Filter.mentions query) with
      | true =>
        have found : anyMentions query (v :: vs) = .ok true := by simp [anyMentions, text, hit]
        constructor
        · intro failed
          obtain ⟨_, failed⟩ := failed
          rw [found] at failed
          cases failed
        · intro stumbles
          obtain ⟨before, w, after, same, noText, missed⟩ := stumbles
          cases before with
          | nil =>
            cases same
            rw [text] at noText
            cases noText
          | cons u before =>
            cases same
            obtain ⟨s, own, miss⟩ := missed v List.mem_cons_self
            rw [text] at own
            cases own
            rw [hit] at miss
            cases miss
      | false =>
        have later : anyMentions query (v :: vs) = anyMentions query vs := by
          simp [anyMentions, text, hit]
        rw [later, ih]
        constructor
        · intro stumbles
          obtain ⟨before, w, after, rfl, noText, missed⟩ := stumbles
          refine ⟨v :: before, w, after, rfl, noText, ?_⟩
          intro u member
          cases List.mem_cons.1 member with
          | inl same =>
            rw [same]
            exact ⟨ts, text, hit⟩
          | inr inBefore => exact missed u inBefore
        · intro stumbles
          obtain ⟨before, w, after, same, noText, missed⟩ := stumbles
          cases before with
          | nil =>
            cases same
            rw [text] at noText
            cases noText
          | cons u before =>
            cases same
            exact ⟨before, w, after, rfl, noText, fun x member =>
              missed x (List.mem_cons_of_mem v member)⟩

theorem admits_error_iff : (∃ fault, admits f r = .error fault) ↔
    f.query ≠ [] ∧ Filter.agrees f.type r.type = true ∧ agrees f.category r.category = true ∧
      Stumbles f.query [r.name, r.description, r.left, r.right] := by
  rw [← anyMentions_error_iff, admits, ← List.isEmpty_eq_false_iff]
  cases Filter.agrees f.type r.type <;> cases agrees f.category r.category <;>
    cases f.query.isEmpty <;> simp

theorem search_error_iff : (∃ fault, search f records = .error fault) ↔
    ∃ r ∈ records, ∃ fault, admits f r = .error fault := by
  induction records with
  | nil =>
    constructor
    · intro failed
      obtain ⟨_, failed⟩ := failed
      cases failed
    · intro found
      obtain ⟨_, member, _⟩ := found
      cases member
  | cons r records ih =>
    have parts : (∃ s ∈ r :: records, ∃ fault, admits f s = .error fault) ↔
        (∃ fault, admits f r = .error fault) ∨ ∃ fault, search f records = .error fault := by
      rw [ih]
      simp only [List.mem_cons, exists_eq_or_imp]
    rw [parts, search]
    cases own : admits f r with
    | error fault => simp [bind, Except.bind]
    | ok wanted =>
      cases later : search f records with
      | error fault => simp [bind, Except.bind]
      | ok more => simp [bind, Except.bind, pure, Except.pure]

theorem search_all (records : List Record) : search ⟨[], none, none⟩ records = .ok records := by
  induction records with
  | nil => rfl
  | cons r records ih =>
    rw [search, ih]
    rfl

end RecordListing
end OperatorCalculus
