import OperatorCalculus.Proofs.CommandLine.Disk
import OperatorCalculus.Proofs.Latex.Filing

namespace OperatorCalculus

open OperatorCalculus.Task

variable {d d' : Disk} {rules : List Rule} {verbose : Bool}

namespace Extraction

theorem gives_said {lines : List Text} {u : Unit} : Gives d (said verbose lines) u d' ↔ d' = d := by
  rw [said]
  split
  · exact gives_say
  · exact gives_pure.trans ⟨And.right, fun same => ⟨rfl, same⟩⟩

theorem gives_said_bind {α : Type} {lines : List Text} {f : Unit → Task α} {a : α} :
    Gives d (said verbose lines >>= f) a d' ↔ Gives d (f ()) a d' := by
  rw [gives_bind]
  constructor
  · rintro ⟨_, _, announced, later⟩
    obtain rfl := gives_said.1 announced
    exact later
  · exact fun later => ⟨(), d, gives_said.2 rfl, later⟩

def document (d : Disk) (directory name : Text) : Text :=
  match d.read (Path.inside directory name) with
  | .ok content => Text.unifyLineEnds content
  | .error _ => []

def found (d : Disk) (directory name : Text) : List Rule :=
  Source.rules (document d directory name) name

theorem document_of_read {directory name content : Text}
    (there : d.read (Path.inside directory name) = .ok content) :
    document d directory name = Text.unifyLineEnds content := by
  rw [document, there]

def Readable (d : Disk) (directory name : Text) : Prop :=
  ∃ content, d.read (Path.inside directory name) = .ok content

theorem gives_readAll {directory : Text} {names : List Text} :
    Gives d (readAll directory verbose names) rules d' ↔
      (∀ name ∈ names, Readable d directory name) ∧
        rules = names.flatMap (found d directory) ∧ d' = d := by
  induction names generalizing d' rules with
  | nil =>
    rw [readAll, gives_pure]
    simp
  | cons name rest ih =>
    rw [readAll, gives_said_bind, gives_bind, List.forall_mem_cons, List.flatMap_cons]
    constructor
    · rintro ⟨text, between, read, counting⟩
      obtain ⟨content, there, rfl, rfl⟩ := gives_readText.1 read
      obtain ⟨more, _, later, last⟩ := gives_bind.1 (gives_said_bind.1 counting)
      obtain ⟨readable, rfl, rfl⟩ := ih.1 later
      obtain ⟨rfl, rfl⟩ := gives_pure.1 last
      rw [found, document_of_read there]
      exact ⟨⟨⟨content, there⟩, readable⟩, rfl, rfl⟩
    · rintro ⟨⟨⟨content, there⟩, readable⟩, rfl, rfl⟩
      refine ⟨_, _, gives_readText.2 ⟨content, there, rfl, rfl⟩, gives_said_bind.2 ?_⟩
      refine gives_bind.2 ⟨_, _, ih.2 ⟨readable, rfl, rfl⟩, ?_⟩
      rw [found, document_of_read there]
      exact gives_pure.2 ⟨rfl, rfl⟩

theorem gives_ofDirectory {directory : Text} :
    Gives d (ofDirectory directory verbose) rules d' ↔
      (∀ name ∈ sources (d.list (Path.normalize directory)), Readable d directory name) ∧
        rules = (sources (d.list (Path.normalize directory))).flatMap (found d directory) ∧ d' = d := by
  rw [ofDirectory, gives_bind]
  constructor
  · rintro ⟨names, _, listed, reading⟩
    obtain ⟨rfl, rfl⟩ := gives_listNames.1 listed
    obtain ⟨all, _, read, counting⟩ := gives_bind.1 (gives_said_bind.1 reading)
    obtain ⟨readable, rfl, rfl⟩ := gives_readAll.1 read
    have last := gives_said_bind.1 counting
    obtain ⟨rfl, rfl⟩ := gives_pure.1 last
    exact ⟨readable, rfl, rfl⟩
  · rintro ⟨readable, rfl, rfl⟩
    refine ⟨_, _, gives_listNames.2 ⟨rfl, rfl⟩, gives_said_bind.2 ?_⟩
    refine gives_bind.2 ⟨_, _, gives_readAll.2 ⟨readable, rfl, rfl⟩, gives_said_bind.2 ?_⟩
    exact gives_pure.2 ⟨rfl, rfl⟩

theorem ofDirectory_fileable {directory : Text}
    (given : Gives d (ofDirectory directory verbose) rules d') :
    d' = d ∧ ∀ r ∈ rules, r.Fileable := by
  obtain ⟨_, rfl, same⟩ := gives_ofDirectory.1 given
  refine ⟨same, fun r member => ?_⟩
  obtain ⟨name, _, inside⟩ := List.mem_flatMap.1 member
  exact Source.rules_fileable _ name r inside

theorem written_of_writeTo {output : Text} {format : OutputFormat} {u : Unit}
    (given : Gives d (writeTo output format verbose rules) u d') :
    d.write (Path.normalize output) (format.render rules) = (d', none) := by
  obtain ⟨_, _, written, announced⟩ := gives_bind.1 given
  obtain rfl := gives_said.1 announced
  exact gives_writeText.1 written

end Extraction

theorem CommandLine.loadRecords_written {limit : Nat} (room : 2 ≤ limit) {path : Text}
    (fileable : ∀ r ∈ rules, r.Fileable) (there : d.read path = .ok (RuleFile.writeRules rules)) :
    Gives d (loadRecords limit path) (rules.map Rule.toRecord) d := by
  refine gives_bind.2 ⟨RuleFile.writeRules rules, d, gives_readText.2 ⟨_, there, ?_, rfl⟩, ?_⟩
  · rw [RuleFile.unifyLineEnds_writeRules]
  · rw [RuleFile.read_writeRules room fileable]
    exact gives_pure.2 ⟨rfl, rfl⟩

namespace RuleFile

-- The file of a list of rules is read as that list, whatever characters the rules hold, and
-- it is the file an extraction writes. The rules an extraction finds can all be filed, so
-- whenever one has found its rules and written them, the file holds what it found. The reader
-- must allow the two levels that such a file has.
theorem written_rules_return {limit : Nat} (room : 2 ≤ limit) :
    (∀ rules : List Rule, (∀ r ∈ rules, r.Fileable) →
      read limit (Text.unifyLineEnds (writeRules rules)) = .ok (rules.map Rule.toRecord) ∧
        (rules.map Rule.toRecord).mapM Record.toRule? = some rules ∧
        OutputFormat.render rules .json = writeRules rules) ∧
    (∀ document path, ∀ r ∈ Source.rules document path, r.Fileable) ∧
    (∀ (directory output : Text) (verbose : Bool) (before between after : Disk) (rules : List Rule),
      Gives before (Extraction.ofDirectory directory verbose) rules between →
      Gives between (Extraction.writeTo output .json verbose rules) () after →
      Gives after (CommandLine.loadRecords limit (Path.normalize output)) (rules.map Rule.toRecord)
        after) := by
  refine ⟨fun rules fileable => ⟨?_, ?_, rfl⟩, Source.rules_fileable, ?_⟩
  · rw [unifyLineEnds_writeRules, read_writeRules room fileable]
  · exact Rule.mapM_toRule?_toRecord rules
  · intro directory output verbose before between after rules extracted written
    obtain ⟨_, fileable⟩ := Extraction.ofDirectory_fileable extracted
    exact CommandLine.loadRecords_written room fileable
      (Disk.read_write (Extraction.written_of_writeTo written))

theorem written_rules_return_extracted :
    let marked : Rule := ⟨['\x22'], ['\\', 'n'], Rule.axiomType, ['\r'], ['\x01'], "\\Pu".toList,
      ['😀'], some ['§'], none⟩
    let document : Text := "\\[,i \\Pu, \\Rq ,i \\Os,\\]".toList
    let rules := Source.rules document "a.tex".toList
    let before := Disk.ofFiles [("t/a.tex".toList, document)]
    let after := Disk.ofFiles [("t/a.tex".toList, document), (['o'], writeRules rules)]
    2 ≤ 988 ∧ marked.Fileable ∧
      read 988 (Text.unifyLineEnds (writeRules [marked])) = .ok [marked.toRecord] ∧
      rules.length = 1 ∧ Gives before (Extraction.ofDirectory ['t'] false) rules before ∧
      Gives before (Extraction.writeTo ['o'] .json false rules) () after ∧
      Gives after (CommandLine.loadRecords 988 ['o']) (rules.map Rule.toRecord) after := by
  intro marked document rules before after
  have fileable : ∀ r ∈ [marked], r.Fileable := by decide
  have source : Extraction.sources (before.list (Path.normalize ['t'])) = ["a.tex".toList] := by
    decide +kernel
  have extracted : Gives before (Extraction.ofDirectory ['t'] false) rules before := by
    refine gives_bind.2 ⟨_, _, gives_listNames.2 ⟨rfl, rfl⟩, ?_⟩
    rw [source]
    exact ⟨rfl, rfl⟩
  have written : Gives before (Extraction.writeTo ['o'] .json false rules) () after := ⟨rfl, rfl⟩
  have room : 2 ≤ 988 := by decide
  exact ⟨room, fileable marked (by simp), ((written_rules_return room).1 [marked] fileable).1,
    by decide +kernel, extracted, written,
    (written_rules_return room).2.2 ['t'] ['o'] false before before after rules extracted written⟩

end RuleFile
end OperatorCalculus
