import Mathlib.Data.List.Nodup
import OperatorCalculus.Proofs.Latex.Chapter
import OperatorCalculus.Proofs.Latex.DataModule

namespace OperatorCalculus

namespace Naming

variable {path path' left right left' right' : Text}

theorem not_isSlugChar_hyphen : isSlugChar '-' = false := by decide

theorem hyphen_notMem_ofNat (n : Nat) : '-' ∉ Text.ofNat n := by
  intro member
  have digit := (Operand.isNumberWord_iff.1 (Text.isNumberWord_ofNat n)).2 _ member
  cases digit

theorem hyphen_notMem_digest (left right : Text) : '-' ∉ digest left right := by
  intro member
  have kept := (List.mem_filter.1 (List.mem_of_mem_take member)).2
  rw [not_isSlugChar_hyphen] at kept
  cases kept

theorem id_inj {i j : Nat} : id path i left right = id path' j left' right' ↔
    slug path = slug path' ∧ i = j ∧ digest left right = digest left' right' := by
  constructor
  · intro same
    obtain ⟨front, digests⟩ := Text.append_cons_inj_of_last (hyphen_notMem_digest _ _)
      (hyphen_notMem_digest _ _) same
    obtain ⟨slugs, places⟩ := Text.append_cons_inj_of_last (hyphen_notMem_ofNat i)
      (hyphen_notMem_ofNat j) front
    exact ⟨slugs, Text.ofNat_injective places, digests⟩
  · rintro ⟨slugs, rfl, digests⟩
    unfold id
    rw [slugs, digests]

end Naming

namespace Source

variable {document path document' path' : Text} {r : Rule} {k : Nat}

theorem id_of_getElem? (there : (rules document path)[k]? = some r) :
    r.id = Naming.id path k r.left r.right := by
  rw [← rulesOf_lines, ← renumbered_rulesOf, renumbered, List.getElem?_mapIdx] at there
  obtain ⟨found, _, rfl⟩ := Option.map_eq_some_iff.1 there
  rw [Nat.zero_add]

theorem nodup_ids (document path : Text) : ((rules document path).map Rule.id).Nodup := by
  unfold List.Nodup
  rw [List.pairwise_map, List.pairwise_iff_getElem]
  intro i j inside inside' before same
  rw [id_of_getElem? (List.getElem?_eq_getElem inside), id_of_getElem? (List.getElem?_eq_getElem inside')] at same
  exact Nat.ne_of_lt before (Naming.id_inj.1 same).2.1

-- Two sources share no identifier if their slugs differ. If the slugs are the same, then at
-- each place where both have a rule, the digests of the two rules decide.
def Separated (document path document' path' : Text) : Prop :=
  Naming.slug path = Naming.slug path' →
    ∀ (k : Nat) (r r' : Rule), (rules document path)[k]? = some r →
      (rules document' path')[k]? = some r' →
      Naming.digest r.left r.right ≠ Naming.digest r'.left r'.right

theorem disjoint_ids_iff : ((rules document path).map Rule.id).Disjoint ((rules document' path').map Rule.id) ↔
    Separated document path document' path' := by
  rw [List.disjoint_left]
  constructor
  · intro apart slugs k r r' there there' digests
    apply apart (List.mem_map_of_mem (List.mem_of_getElem? there))
    have same : r.id = r'.id := by
      rw [id_of_getElem? there, id_of_getElem? there']
      exact Naming.id_inj.2 ⟨slugs, rfl, digests⟩
    rw [same]
    exact List.mem_map_of_mem (List.mem_of_getElem? there')
  · intro separated name member member'
    obtain ⟨r, inside, rfl⟩ := List.mem_map.1 member
    obtain ⟨r', inside', same⟩ := List.mem_map.1 member'
    obtain ⟨k, there⟩ := List.getElem?_of_mem inside
    obtain ⟨k', there'⟩ := List.getElem?_of_mem inside'
    rw [id_of_getElem? there, id_of_getElem? there'] at same
    obtain ⟨slugs, rfl, digests⟩ := Naming.id_inj.1 same
    exact separated slugs.symm k' r r' there there' digests.symm

end Source
end OperatorCalculus
