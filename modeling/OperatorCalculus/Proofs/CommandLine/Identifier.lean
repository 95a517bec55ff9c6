import OperatorCalculus.Proofs.CommandLine.Extraction
import OperatorCalculus.Proofs.Latex.Identifier
import OperatorCalculus.Store.Basic

namespace OperatorCalculus

open OperatorCalculus.Task

theorem Disk.nodup_eraseDups (names : List Text) : names.eraseDups.Nodup := by
  match names with
  | [] => exact List.nodup_nil
  | name :: rest =>
    have fewer : (rest.filter fun other => !other == name).length < rest.length + 1 :=
      Nat.lt_succ_of_le (List.length_filter_le _ _)
    rw [List.eraseDups_cons, List.nodup_cons]
    refine ⟨fun member => ?_, nodup_eraseDups _⟩
    have kept := (List.mem_filter.1 (List.mem_eraseDups.1 member)).2
    simp at kept
termination_by names.length

theorem Disk.nodup_list (d : Disk) (path : Text) : (d.list path).Nodup := by
  unfold list
  split
  · exact List.nodup_nil
  · exact nodup_eraseDups _

theorem Store.find?_id_of_nodup {s : Store} (distinct : (s.rules.map Rule.id).Nodup) {r : Rule}
    (member : r ∈ s.rules) : s.find? r.id = some r := by
  obtain ⟨before, after, place⟩ := List.append_of_mem member
  rw [find?, List.find?_eq_some_iff_append]
  refine ⟨beq_self_eq_true r.id, before, after, place, fun other earlier => ?_⟩
  rw [place, List.map_append, List.map_cons, List.nodup_append] at distinct
  have apart := distinct.2.2 other.id (List.mem_map_of_mem earlier) r.id List.mem_cons_self
  rw [Bool.not_eq_true', beq_eq_false_iff_ne]
  exact apart

namespace Extraction

variable {d d' : Disk} {rules : List Rule} {verbose : Bool}

theorem nodup_sources (d : Disk) (path : Text) : (sources (d.list path)).Nodup :=
  (List.mergeSort_perm _ _).nodup_iff.2 ((d.nodup_list path).filter _)

theorem sources_of_sorted {names sorted : List Text}
    (kept : (names.filter fun n => sourceEnding.isSuffixOf n) = sorted)
    (ordered : sorted.Pairwise fun a b => Text.le a b = true) : sources names = sorted := by
  rw [sources, kept]
  exact List.mergeSort_of_pairwise ordered

theorem gives_of_sources {directory : Text} {names : List Text}
    (listed : sources (d.list (Path.normalize directory)) = names)
    (readable : ∀ name ∈ names, Readable d directory name) :
    Gives d (ofDirectory directory verbose) (names.flatMap (found d directory)) d := by
  rw [gives_ofDirectory, listed]
  exact ⟨readable, rfl, rfl⟩

-- The identifiers of one source are all different. Those of a directory are all different
-- exactly when any two of its sources are separated, and then a store of its rules finds every
-- rule by its own.
theorem nodup_ids_iff {directory : Text} (extracted : Gives d (ofDirectory directory verbose) rules d') :
    let names := sources (d.list (Path.normalize directory))
    names.Nodup ∧ rules = names.flatMap (found d directory) ∧
      (∀ name ∈ names, ((found d directory name).map Rule.id).Nodup) ∧
      ((rules.map Rule.id).Nodup ↔ names.Pairwise fun a b =>
        Source.Separated (document d directory a) a (document d directory b) b) ∧
      ((rules.map Rule.id).Nodup → ∀ s : Store, s.rules = rules →
        ∀ r ∈ rules, s.find? r.id = some r) := by
  intro names
  obtain ⟨_, whole, _⟩ := gives_ofDirectory.1 extracted
  have alone : ∀ name ∈ names, ((found d directory name).map Rule.id).Nodup :=
    fun name _ => Source.nodup_ids (document d directory name) name
  refine ⟨nodup_sources d _, whole, alone, ?_, ?_⟩
  · rw [whole, List.map_flatMap, List.nodup_flatMap, and_iff_right alone]
    exact List.Pairwise.iff fun a b => Source.disjoint_ids_iff
  · rintro distinct s rfl r member
    exact Store.find?_id_of_nodup distinct member

-- Two names with one slug, and digests that tell their rules apart.
theorem nodup_ids_iff_of_digests :
    let d := Disk.ofFiles [("a b.tex".toList, "\\[,i \\Pu, \\Rq ,i \\Os,\\]".toList),
      ("a-b.tex".toList, "\\[,j \\Pu, \\Rq ,j \\Os,\\]".toList)]
    ∃ rules, Gives d (ofDirectory ['.'] false) rules d ∧ rules.length = 2 ∧ (rules.map Rule.id).Nodup ∧
      ∀ s : Store, s.rules = rules → ∀ r ∈ rules, s.find? r.id = some r := by
  intro d
  have names : sources (d.list (Path.normalize ['.'])) = ["a b.tex".toList, "a-b.tex".toList] :=
    sources_of_sorted (by decide +kernel) (by decide +kernel)
  have readable : ∀ name ∈ ["a b.tex".toList, "a-b.tex".toList], Readable d ['.'] name :=
    List.forall_mem_cons.2 ⟨⟨_, rfl⟩, List.forall_mem_singleton.2 ⟨_, rfl⟩⟩
  have extracted : Gives d (ofDirectory ['.'] false) _ d := gives_of_sources names readable
  have distinct : ((["a b.tex".toList, "a-b.tex".toList].flatMap (found d ['.'])).map Rule.id).Nodup := by
    decide +kernel
  exact ⟨_, extracted, by decide +kernel, distinct, (nodup_ids_iff extracted).2.2.2.2 distinct⟩

-- A slug keeps nothing of either name, and the digests are the same. The store answers for
-- both rules with that of the first source.
theorem not_nodup_ids :
    let d := Disk.ofFiles [("α.tex".toList, "\\[,i \\Pu, \\Rq ,i \\Os,\\]".toList),
      ("β.tex".toList, "\\[,i \\Ru, \\Rq ,i \\Ts,\\]".toList)]
    ∃ rules, Gives d (ofDirectory ['.'] false) rules d ∧ ¬ (rules.map Rule.id).Nodup ∧
      ∃ r ∈ rules, ∃ other ∈ rules, r.right ≠ other.right ∧
        ∀ s : Store, s.rules = rules → s.find? other.id = some r := by
  intro d
  have names : sources (d.list (Path.normalize ['.'])) = ["α.tex".toList, "β.tex".toList] :=
    sources_of_sorted (by decide +kernel) (by decide +kernel)
  have readable : ∀ name ∈ ["α.tex".toList, "β.tex".toList], Readable d ['.'] name :=
    List.forall_mem_cons.2 ⟨⟨_, rfl⟩, List.forall_mem_singleton.2 ⟨_, rfl⟩⟩
  have extracted : Gives d (ofDirectory ['.'] false) _ d := gives_of_sources names readable
  have both : ["α.tex".toList, "β.tex".toList].flatMap (found d ['.']) =
      [⟨"-0-iuis".toList, "i \\Pu ⟺ i \\Os".toList, Rule.theoremType, "operators".toList, [],
          ",i \\Pu,".toList, ",i \\Os,".toList, none, none⟩,
        ⟨"-0-iuis".toList, "i \\Ru ⟺ i \\Ts".toList, Rule.theoremType, "operators".toList, [],
          ",i \\Ru,".toList, ",i \\Ts,".toList, none, none⟩] := by
    decide +kernel
  rw [both] at extracted
  refine ⟨_, extracted, by decide, _, List.mem_cons_self, _, List.mem_cons_of_mem _ List.mem_cons_self,
    by decide, fun s same => ?_⟩
  rw [Store.find?, same]
  rfl

end Extraction
end OperatorCalculus
