import OperatorCalculus.CommandLine.Disk
import OperatorCalculus.CommandLine.Run
import OperatorCalculus.Proofs.CommandLine.Disk
import OperatorCalculus.Proofs.Report.Listing
import OperatorCalculus.Proofs.Rule.Records
import OperatorCalculus.Proofs.Rule.RoundTrip

-- How the listing of a rule file ends, for every content of the file. Faults of the text
-- and objects that are no records are reported. A value that cannot be asked for members
-- or cannot head a group was never asked whether it can, and breaks the command off.
namespace OperatorCalculus

namespace Options

theorem consume_option {hit : OptionHit} {text : Text} {rest left : List Argument}
    {p q : Parsed} (taken : takeOption hit text rest p = .ok (left, q)) (fuel : Nat)
    (pending : List Arity) : consume (fuel + 1) (⟨.option hit, text⟩ :: rest) ⟨pending, p⟩ =
      consume fuel left ⟨pending, q⟩ := by
  simp [consume, isOption, taken]

theorem takeOption_value {v : Text} (other : (v == doubleHyphen) = false)
    (key name : Text) (left : List Argument) (p : Parsed) :
    takeOption ⟨some (.value key Command.anyText), none⟩ name (⟨.plain, v⟩ :: left) p =
      .ok (left, { p with settings := p.settings ++ [(key, some v)] }) := by
  simp [takeOption, isPlain, other, Command.anyText]

end Options

namespace CommandLine

variable {d : Disk} {path content : Text}

theorem ofArguments_rules (named : path ≠ []) (plain : path.head? ≠ some '-') :
    Invocation.ofArguments ["--rules".toList, path, "rules".toList] =
      .ok ⟨some path, none, false, .rules (some []) none none⟩ := by
  obtain ⟨c, rest, rfl⟩ := List.exists_cons_of_ne_nil named
  have hyphen : c ≠ '-' := fun same => plain (by rw [same]; rfl)
  have other : (c :: rest == Options.doubleHyphen) = false := by
    simp [Options.doubleHyphen, hyphen]
  have kind : Options.classify Command.mainGrammar (c :: rest) = .ok .plain := by
    simp [Options.classify, hyphen]
  have marked : Options.classify Command.mainGrammar "--rules".toList =
      .ok (.option ⟨some (.value "rules".toList Command.anyText), none⟩) := rfl
  have given : Options.classifyAll Command.mainGrammar ["--rules".toList, c :: rest, "rules".toList] =
      .ok [⟨.option ⟨some (.value "rules".toList Command.anyText), none⟩, "--rules".toList⟩,
        ⟨.plain, c :: rest⟩, ⟨.plain, "rules".toList⟩] := by
    simp only [Options.classifyAll, other, kind, marked]
    rfl
  have parsed : Options.parse Command.mainGrammar ["--rules".toList, c :: rest, "rules".toList] =
      .ok ⟨[("rules".toList, some (c :: rest))], [], some ["rules".toList], false⟩ := by
    have taken := Options.takeOption_value other "rules".toList "--rules".toList
      [⟨.plain, "rules".toList⟩] ⟨[], [], none, false⟩
    rw [Options.parse, given]
    simp only [bind, Except.bind, List.length_cons, Options.consume_option taken]
    rfl
  rw [Invocation.ofArguments, parsed]
  rfl

def printed (lines : List Spelling) : Except Failure Unit :=
  match lines.find? fun line => (Spelling.text? line).isNone with
  | none => .ok ()
  | some line => .error (.document (Spelling.encodingFault line))

theorem run_print (d : Disk) (lines : List Spelling) :
    (d.run (Task.print lines).run).value = printed lines := by
  induction lines with
  | nil => rfl
  | cons line rest ih =>
    rw [Task.print, printed]
    cases whole : Spelling.text? line with
    | none => simp [whole, Task.fail, ExceptT.run, ExceptT.mk, Disk.run]
    | some t =>
      rw [List.find?_cons_of_neg (by simp [whole])]
      exact ih

theorem printed_of_whole {lines : List Spelling} (whole : ∀ line ∈ lines, Spelling.Whole line) :
    printed lines = .ok () := by
  have unfound : (lines.find? fun line => (Spelling.text? line).isNone) = none := by
    rw [List.find?_eq_none]
    intro line member torn
    exact Spelling.text?_eq_none_iff.1 (Option.isNone_iff_eq_none.1 torn) (whole line member)
  rw [printed, unfound]

theorem printed_of_torn {before : List Text} {line : Spelling} {after : List Spelling}
    (torn : ¬ Spelling.Whole line) : printed (before.map Spelling.ofText ++ line :: after) =
      .error (.document (Spelling.encodingFault line)) := by
  have found : (before.map Spelling.ofText ++ line :: after).find?
      (fun line => (Spelling.text? line).isNone) = some line := by
    rw [List.find?_eq_some_iff_append]
    refine ⟨by simpa using Spelling.text?_eq_none_iff.2 torn, _, _, rfl, ?_⟩
    intro text member
    obtain ⟨t, _, rfl⟩ := List.mem_map.1 member
    simp [Spelling.text?_ofText]
  rw [printed, found]

def listAll (records : List Record) : Task Nat := do
  let found ← Task.ofListing (RecordListing.search ⟨[], none, none⟩ records)
  let groups ← Task.ofListing (RecordListing.group found)
  Task.print (Report.records groups (RecordListing.counts found))
  return 0

theorem command_rules (limit : Nat) (path : Text) :
    command limit ⟨some path, none, false, .rules (some []) none none⟩ =
      (loadRecords limit path >>= fun records => pure (records ++ [])) >>= listAll := by
  rfl

def listed (records : List Record) : Except Failure Nat :=
  match RecordListing.group records with
  | .ok groups => (printed (Report.records groups (RecordListing.counts records))).map fun _ => 0
  | .error f => .error (.brokenOff (.listing f))

theorem run_listAll (d : Disk) (records : List Record) :
    (d.run (listAll records).run).value = listed records := by
  unfold listAll listed
  rw [RecordListing.search_all]
  change (d.run (Task.ofListing (RecordListing.group records) >>= _ : Task Nat).run).value = _
  cases RecordListing.group records with
  | error f => rfl
  | ok groups =>
    change (d.run (Task.print _ >>= _ : Task Nat).run).value = _
    rw [Task.value_bind, run_print]
    dsimp only
    cases printed (Report.records groups (RecordListing.counts records)) with
    | error f => rfl
    | ok u => rfl

variable {limit : Nat}

theorem run_loadRecords (there : d.read path = .ok content) :
    (d.run (loadRecords limit path).run).value =
      match RuleFile.read limit (Text.unifyLineEnds content) with
      | .ok records => .ok records
      | .error f => .error (f.failure (Text.unifyLineEnds content)) := by
  have text : Task.Gives d (Task.readText path) (Text.unifyLineEnds content) d :=
    Task.gives_readText.2 ⟨content, there, rfl, rfl⟩
  unfold loadRecords
  rw [Task.value_bind, text.1]
  dsimp only
  cases RuleFile.read limit (Text.unifyLineEnds content) with
  | ok records => rfl
  | error f => rfl

def endingOf (limit : Nat) (document : Text) : Ending :=
  match RuleFile.read limit document with
  | .ok records => .of (listed records)
  | .error f => .of (.error (f.failure document))

theorem run_rules (named : path ≠ []) (plain : path.head? ≠ some '-')
    (there : d.read path = .ok content) :
    (d.run (run limit ["--rules".toList, path, "rules".toList])).value =
      endingOf limit (Text.unifyLineEnds content) := by
  unfold run endingOf
  rw [ofArguments_rules named plain]
  dsimp only
  rw [(Disk.run_bind _ _ d).1, command_rules, Task.value_bind, Task.value_bind,
    run_loadRecords there]
  cases RuleFile.read limit (Text.unifyLineEnds content) with
  | error f => rfl
  | ok records =>
    have kept : ∀ e : Disk, (e.run (pure (records ++ []) : Task (List Record)).run).value =
        .ok records := fun e => congrArg Except.ok (List.append_nil records)
    dsimp only
    rw [kept]
    dsimp only
    rw [run_listAll]
    rfl

end CommandLine

namespace Record

-- What a listing asks of a record: a category that can head a group, and texts to show.
structure Listable (members : Members) : Prop where
  heads : ∀ v, Json.member? Member.category members = some v → v.canHead = true
  shown : ∀ key ∈ [Member.id, Member.category, Member.left, Member.right],
    ∀ v, Json.member? key members = some v → v.Showable

theorem listable_iff {members : Members} {r : Record} (keeps : Keeps members r) :
    Listable members ↔ r.category.canHead = true ∧ r.Showable := by
  constructor
  · intro listable
    have shown := listable.shown
    simp only [List.forall_mem_cons] at shown
    obtain ⟨id, category, left, right, _⟩ := shown
    exact ⟨listable.heads _ keeps.category, id _ keeps.id, category _ keeps.category,
      left _ keeps.left, right _ keeps.right⟩
  · intro both
    obtain ⟨heads, showable⟩ := both
    refine ⟨?_, ?_⟩
    · rw [keeps.category]
      rintro v ⟨⟩
      exact heads
    · simp only [List.forall_mem_cons, keeps.id, keeps.category, keeps.left, keeps.right,
        Option.some.injEq, forall_eq']
      exact ⟨showable.id, showable.category, showable.left, showable.right, nofun⟩

end Record

namespace RuleFile

variable {limit : Nat} {document : Text}

-- The documents that no message is made for: nested too deeply, a single value, an entry
-- that is no object before any other fault, a category that is itself a collection.
inductive BreaksOff (limit : Nat) (document : Text) : Prop where
  | nested {unread : Nat} (fault : Json.read limit document = .error ⟨.nestedTooDeeply, unread⟩)
  | single {v : Json} (read : Json.read limit document = .ok v) (none : entries? v = none)
  | entry {v e : Json} {before after : List Json} (read : Json.read limit document = .ok v)
    (entries : entries? v = some (before ++ e :: after)) (records : ∀ b ∈ before, IsRecord b)
    (other : ¬ Record.IsObject e)
  | heading {v category : Json} {vs : List Json} {members : Record.Members}
    (read : Json.read limit document = .ok v) (entries : entries? v = some vs)
    (records : ∀ e ∈ vs, IsRecord e) (inside : .obj members ∈ vs)
    (filed : Json.member? Member.category members = some category)
    (collection : category.canHead = false)

-- The documents that are refused with a message: they are no structured values, the first
-- entry that is no record is an object, or a line of the listing can not be encoded.
inductive Refuses (limit : Nat) (document : Text) : Text → Prop where
  | syntactic {f : Json.Fault} (fault : Json.read limit document = .error f)
    (other : f.cause ≠ .nestedTooDeeply) : Refuses limit document (f.message document)
  | record {v : Json} {before after : List Json} {members : Record.Members} {fault : RecordFault}
    (read : Json.read limit document = .ok v)
    (entries : entries? v = some (before ++ .obj members :: after))
    (records : ∀ b ∈ before, IsRecord b) (faulty : Record.Faulty members fault) :
    Refuses limit document fault.message
  | torn {rs : List Record} {groups : Listing.Groups Heading Text Record} {before : List Text}
    {line : Spelling} {after : List Spelling} (read : RuleFile.read limit document = .ok rs)
    (grouped : RecordListing.group rs = .ok groups)
    (lines : Report.records groups (RecordListing.counts rs) =
      before.map Spelling.ofText ++ line :: after)
    (broken : ¬ Spelling.Whole line) : Refuses limit document (Spelling.encodingFault line)

def Lists (limit : Nat) (document : Text) : Prop :=
  ∃ v vs, Json.read limit document = .ok v ∧ entries? v = some vs ∧
    ∀ e ∈ vs, ∃ members, e = .obj members ∧ Record.Decodes members ∧ Record.Listable members

theorem read_of_records {v : Json} {vs : List Json} {rs : List Record}
    (read : Json.read limit document = .ok v) (entries : entries? v = some vs)
    (made : readRecords vs = .ok rs) : RuleFile.read limit document = .ok rs := by
  simp only [RuleFile.read, read, entries, made]

theorem read_of_fault {v : Json} {vs : List Json} {fault : RecordFault}
    (read : Json.read limit document = .ok v) (entries : entries? v = some vs)
    (failed : readRecords vs = .error fault) :
    RuleFile.read limit document = .error (.record fault) := by
  simp only [RuleFile.read, read, entries, failed]

open CommandLine

theorem endingOf_of_read {rs : List Record} (read : RuleFile.read limit document = .ok rs) :
    endingOf limit document = .of (listed rs) := by
  rw [endingOf, read]

theorem endingOf_of_fault {f : RuleFileFault} (failed : RuleFile.read limit document = .error f) :
    endingOf limit document = .of (.error (f.failure document)) := by
  rw [endingOf, failed]

theorem listed_of_group {rs : List Record} {groups : Listing.Groups Heading Text Record}
    (grouped : RecordListing.group rs = .ok groups) : listed rs =
      (printed (Report.records groups (RecordListing.counts rs))).map fun _ => 0 := by
  rw [listed, grouped]

theorem refused_injective {first second : Text} (same : refused first = refused second) :
    first = second := by
  cases Ending.exit.inj same with
  | intro _ messages => exact List.append_cancel_left (Option.some.inj messages)

theorem group_of_heads {rs : List Record} (heads : ∀ r ∈ rs, r.category.canHead = true) :
    ∃ groups, RecordListing.group rs = .ok groups :=
  ⟨_, if_pos (List.all_eq_true.2 heads)⟩

theorem BreaksOff.ending (breaks : BreaksOff limit document) :
    ∃ why, endingOf limit document = .brokenOff why := by
  cases breaks with
  | nested fault =>
    have failed : RuleFile.read limit document = .error .nestedTooDeeply := by
      rw [RuleFile.read, fault]
      rfl
    exact ⟨.nestedTooDeeply, endingOf_of_fault failed⟩
  | single read none =>
    have failed : RuleFile.read limit document = .error .notListed := by
      simp only [RuleFile.read, read, none]
    exact ⟨.notListed, endingOf_of_fault failed⟩
  | entry read entries records other =>
    rcases Record.ofJson_of_not_object other with failed | failed
    · exact ⟨.memberless, endingOf_of_fault
        (read_of_fault read entries (readRecords_of_fault records failed))⟩
    · exact ⟨.unnamed, endingOf_of_fault
        (read_of_fault read entries (readRecords_of_fault records failed))⟩
  | heading read entries records inside filed collection =>
    refine ⟨.listing .notAHeading, ?_⟩
    obtain ⟨rs, made, makes⟩ := readRecords_of_records records
    obtain ⟨r, member, own⟩ := makes.each _ inside
    have category := (Record.ofMembers_ok own).2.category
    rw [filed] at category
    have ungrouped : RecordListing.group rs = .error .notAHeading := by
      apply if_neg
      intro all
      have heads := List.all_eq_true.1 all r member
      rw [← Option.some.inj category, collection] at heads
      cases heads
    rw [endingOf_of_read (read_of_records read entries made), listed, ungrouped]
    rfl

theorem Refuses.ending {message : Text} (refuses : Refuses limit document message) :
    endingOf limit document = refused message := by
  cases refuses with
  | @syntactic f fault other =>
    have failed : RuleFile.read limit document = .error (.syntactic f) := by
      rw [RuleFile.read, fault]
      exact if_neg (by simpa using other)
    exact endingOf_of_fault failed
  | record read entries records faulty =>
    have failed := Record.ofMembers_error_iff.2 faulty
    rw [endingOf_of_fault (read_of_fault read entries (readRecords_of_fault records failed))]
    cases faulty with
    | missing => rfl
    | unknownType => rfl
  | torn read grouped lines broken =>
    rw [endingOf_of_read read, listed_of_group grouped, lines, printed_of_torn broken]
    rfl

theorem Lists.ending (lists : Lists limit document) : endingOf limit document = .exit 0 none := by
  obtain ⟨v, vs, read, entries, each⟩ := lists
  have records : ∀ e ∈ vs, IsRecord e := by
    intro e member
    obtain ⟨members, same, decodes, _⟩ := each e member
    exact ⟨members, same, decodes⟩
  obtain ⟨rs, made, makes⟩ := readRecords_of_records records
  have listable : ∀ r ∈ rs, r.category.canHead = true ∧ r.Showable := by
    intro r member
    obtain ⟨e, inside, own⟩ := makes.only r member
    obtain ⟨members, rfl, _, listable⟩ := each e inside
    exact (Record.listable_iff (Record.ofMembers_ok own).2).1 listable
  obtain ⟨groups, grouped⟩ := group_of_heads fun r member => (listable r member).1
  have whole := (Report.whole_records grouped).2 fun r member => (listable r member).2
  rw [endingOf_of_read (read_of_records read entries made), listed_of_group grouped,
    printed_of_whole whole]
  rfl

theorem records_cases {v : Json} {vs : List Json} (read : Json.read limit document = .ok v)
    (entries : entries? v = some vs) (records : ∀ e ∈ vs, IsRecord e) :
    BreaksOff limit document ∨ (∃ message, Refuses limit document message) ∨
      Lists limit document := by
  obtain ⟨rs, made, makes⟩ := readRecords_of_records records
  by_cases heads : ∀ r ∈ rs, r.category.canHead = true
  · obtain ⟨groups, grouped⟩ := group_of_heads heads
    rcases Spelling.first_torn (Report.records groups (RecordListing.counts rs)) with
      whole | ⟨before, line, after, lines, broken⟩
    · have showable := (Report.whole_records grouped).1 whole
      refine .inr (.inr ⟨v, vs, read, entries, fun e member => ?_⟩)
      obtain ⟨members, rfl, decodes⟩ := records e member
      obtain ⟨r, inside, own⟩ := makes.each _ member
      have keeps := (Record.ofMembers_ok own).2
      exact ⟨members, rfl, decodes, (Record.listable_iff keeps).2 ⟨heads r inside, showable r inside⟩⟩
    · exact .inr (.inl ⟨_, .torn (read_of_records read entries made) grouped lines broken⟩)
  · left
    simp only [not_forall] at heads
    obtain ⟨r, inside, collection⟩ := heads
    obtain ⟨e, member, own⟩ := makes.only r inside
    obtain ⟨members, rfl, _⟩ := records e member
    have keeps := (Record.ofMembers_ok own).2
    exact .heading read entries records member keeps.category (Bool.eq_false_iff.2 collection)

theorem document_cases (limit : Nat) (document : Text) : BreaksOff limit document ∨
    (∃ message, Refuses limit document message) ∨ Lists limit document := by
  cases read : Json.read limit document with
  | error f =>
    by_cases nested : f.cause = .nestedTooDeeply
    · left
      obtain ⟨cause, unread⟩ := f
      cases nested
      exact .nested read
    · exact .inr (.inl ⟨_, .syntactic read nested⟩)
  | ok v =>
    cases entries : entries? v with
    | none => exact .inl (.single read entries)
    | some vs =>
      rcases first_other vs with records | ⟨before, e, after, rfl, records, other⟩
      · exact records_cases read entries records
      · by_cases object : Record.IsObject e
        · right
          left
          obtain ⟨members, rfl⟩ := object
          rcases Record.ofMembers_cases members with ⟨decodes, _⟩ | ⟨fault, _, faulty⟩
          · exact absurd ⟨members, rfl, decodes⟩ other
          · exact ⟨_, .record read entries records faulty⟩
        · exact .inl (.entry read entries records object)

theorem breaksOff_iff : (∃ why, endingOf limit document = .brokenOff why) ↔ BreaksOff limit document := by
  constructor
  · intro broken
    obtain ⟨why, same⟩ := broken
    rcases document_cases limit document with breaks | ⟨message, refuses⟩ | lists
    · exact breaks
    · rw [refuses.ending] at same
      cases same
    · rw [lists.ending] at same
      cases same
  · exact BreaksOff.ending

theorem refuses_iff {message : Text} :
    endingOf limit document = refused message ↔ Refuses limit document message := by
  constructor
  · intro same
    rcases document_cases limit document with breaks | ⟨other, refuses⟩ | lists
    · obtain ⟨why, broken⟩ := breaks.ending
      rw [broken] at same
      cases same
    · rw [refuses.ending] at same
      rwa [← refused_injective same]
    · rw [lists.ending] at same
      cases same
  · exact Refuses.ending

theorem lists_iff : endingOf limit document = .exit 0 none ↔ Lists limit document := by
  constructor
  · intro same
    rcases document_cases limit document with breaks | ⟨message, refuses⟩ | lists
    · obtain ⟨why, broken⟩ := breaks.ending
      rw [broken] at same
      cases same
    · rw [refuses.ending] at same
      cases same
    · exact lists
  · exact Lists.ending

end RuleFile

namespace CommandLine

-- How a listing of a rule file ends. It is broken off, without a message, exactly by the
-- documents that break off; what a filter can do beyond that is to ask a record for a text
-- that it does not hold.
theorem run_rules_ends {limit : Nat} {d : Disk} {path content : Text} (named : path ≠ [])
    (plain : path.head? ≠ some '-') (there : d.read path = .ok content) :
    let ending := (d.run (run limit ["--rules".toList, path, "rules".toList])).value
    let document := Text.unifyLineEnds content
    ((∃ why, ending = .brokenOff why) ↔ RuleFile.BreaksOff limit document) ∧
    (∀ message, ending = refused message ↔ RuleFile.Refuses limit document message) ∧
    (ending = .exit 0 none ↔ RuleFile.Lists limit document) ∧
    (RuleFile.BreaksOff limit document ∨ (∃ message, RuleFile.Refuses limit document message) ∨
      RuleFile.Lists limit document) ∧
    ∀ (f : Filter) (records : List Record),
      (∃ fault, RecordListing.search f records = .error fault) ↔
        f.query ≠ [] ∧ ∃ r ∈ records, Filter.agrees f.type r.type = true ∧
          RecordListing.agrees f.category r.category = true ∧
          RecordListing.Stumbles f.query [r.name, r.description, r.left, r.right] := by
  intro ending document
  have same : ending = endingOf limit document := run_rules named plain there
  rw [same]
  refine ⟨RuleFile.breaksOff_iff, fun message => RuleFile.refuses_iff, RuleFile.lists_iff,
    RuleFile.document_cases limit document, fun f records => ?_⟩
  rw [RecordListing.search_error_iff]
  constructor
  · intro asked
    obtain ⟨r, member, failed⟩ := asked
    obtain ⟨query, type, category, stumbles⟩ := RecordListing.admits_error_iff.1 failed
    exact ⟨query, r, member, type, category, stumbles⟩
  · intro stumbling
    obtain ⟨query, r, member, rest⟩ := stumbling
    exact ⟨r, member, RecordListing.admits_error_iff.2 ⟨query, rest⟩⟩

theorem run_rules_ends_collected_category :
    let members := Json.named [(Member.id, .str ['1']), (Member.name, .str []),
      (Member.type, .str Rule.axiomType), (Member.category, .arr []), (Member.description, .str []),
      (Member.left, .str [',']), (Member.right, .str [','])]
    let content := RuleFile.layout [.obj members]
    let d := Disk.ofFiles [("r.json".toList, content)]
    "r.json".toList ≠ [] ∧ "r.json".toList.head? ≠ some '-' ∧ d.read "r.json".toList = .ok content ∧
      ∃ why, (d.run (run 988 ["--rules".toList, "r.json".toList, "rules".toList])).value =
        .brokenOff why := by
  intro members content d
  have textual : Json.Textual 988 0 (.arr [.obj members]) := by
    have distinct : (members.map Prod.fst).Nodup := Json.named_nodup (by decide)
    have texts : Json.MembersTextual 988 2 members := by
      simp [members, Json.named, Json.Textual, Json.ItemsTextual, Json.MembersTextual]
    exact ⟨by decide, ⟨by decide, distinct, texts⟩, trivial⟩
  have kept : Text.unifyLineEnds content = content := by
    apply Text.unifyLineEnds_of_no_return
    have single := Json.layout_single_line _ 0 textual
    simp [content, RuleFile.layout, single]
  have breaks : RuleFile.BreaksOff 988 (Text.unifyLineEnds content) := by
    rw [kept]
    refine .heading (Json.read_layout textual) rfl ?_ List.mem_cons_self rfl rfl
    intro e member
    rw [List.mem_singleton.1 member]
    exact ⟨members, rfl, rfl, Rule.axiomType, by decide, rfl⟩
  exact ⟨by decide, by decide, rfl, (run_rules_ends (by decide) (by decide) rfl).1.2 breaks⟩

-- An entry that is a list lacks every member of a record, and is not reported for it.
theorem not_run_rules_reports :
    ¬ ∃ code message,
      ((Disk.ofFiles [("r.json".toList, "[[]]".toList)]).run
        (run 988 ["--rules".toList, "r.json".toList, "rules".toList])).value = .exit code message := by
  intro reports
  obtain ⟨code, message, same⟩ := reports
  have inner : Json.readValue 988 8 1 ['[', ']', ']'] = .ok (.arr [], [']']) := by
    simp only [Json.readValue]
    rfl
  have whole : Json.readValue 988 (2 * "[[]]".toList.length + 2) 0 (Json.skipSpace "[[]]".toList) =
      .ok (.arr [.arr []], []) :=
    Json.readValue_arr (by decide) rfl (by decide) (Json.readItems_last inner rfl)
  have read : Json.read 988 (Text.unifyLineEnds "[[]]".toList) = .ok (.arr [.arr []]) := by
    show Json.read 988 "[[]]".toList = _
    rw [Json.read, if_neg (by decide), whole]
    rfl
  have breaks : RuleFile.BreaksOff 988 (Text.unifyLineEnds "[[]]".toList) := by
    have entries : RuleFile.entries? (.arr [.arr []]) = some ([] ++ .arr [] :: []) := rfl
    apply RuleFile.BreaksOff.entry read entries
    · intro b member
      cases member
    intro object
    obtain ⟨members, other⟩ := object
    cases other
  obtain ⟨why, broken⟩ := breaks.ending
  rw [run_rules (by decide) (by decide) rfl, broken] at same
  cases same

end CommandLine
end OperatorCalculus
