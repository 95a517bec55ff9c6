import OperatorCalculus.Expression.Cover

namespace OperatorCalculus

namespace Candidate

variable {κ : Type}

theorem ranks_total (a b : Candidate κ) : (a.ranks b || b.ranks a) = true := by
  simp only [ranks, Bool.or_eq_true, Bool.and_eq_true, decide_eq_true_eq, beq_iff_eq]
  omega

theorem ranks_trans (a b c : Candidate κ) (ab : a.ranks b = true) (bc : b.ranks c = true) :
    a.ranks c = true := by
  simp only [ranks, Bool.or_eq_true, Bool.and_eq_true, decide_eq_true_eq, beq_iff_eq] at ab bc ⊢
  omega

theorem priority_le_of_ranks {a b : Candidate κ} (ab : a.ranks b = true) :
    a.priority ≤ b.priority := by
  simp only [ranks, Bool.or_eq_true, Bool.and_eq_true, decide_eq_true_eq, beq_iff_eq] at ab
  omega

end Candidate

namespace Cover

variable {κ : Type} {cs : List (Candidate κ)} {spans kept : List (Span κ)}

structure Settles (cs : List (Candidate κ)) (spans : List (Span κ)) : Prop where
  ordered : spans.Pairwise fun a b => a.stop ≤ b.index
  filled : ∀ s ∈ spans, s.value ≠ []
  proposed : ∀ s ∈ spans, ∃ c ∈ cs, c.span = s
  covered : ∀ c ∈ cs, c.span ∈ spans ∨ ∃ d ∈ cs, d.span ∈ spans ∧ d.priority < c.priority ∧
    c.span.overlaps d.span = true

theorem earlier_total (a b : Span κ) : (earlier a b || earlier b a) = true := by
  simp only [earlier, Bool.or_eq_true, decide_eq_true_eq]
  omega

theorem earlier_trans (a b c : Span κ) (ab : earlier a b = true) (bc : earlier b c = true) :
    earlier a c = true := by
  simp only [earlier, decide_eq_true_eq] at ab bc ⊢
  omega

theorem index_lt_stop {s : Span κ} (filled : s.value ≠ []) : s.index < s.stop := by
  have := List.length_pos_iff.2 filled
  simp only [Span.stop]
  omega

theorem eq_of_overlaps (ordered : spans.Pairwise fun a b => a.stop ≤ b.index)
    {a b : Span κ} (inA : a ∈ spans) (inB : b ∈ spans) (meet : a.overlaps b = true) : a = b := by
  simp only [Span.overlaps, Bool.and_eq_true, decide_eq_true_eq] at meet
  obtain ⟨i, hi, rfl⟩ := List.mem_iff_getElem.1 inA
  obtain ⟨j, hj, rfl⟩ := List.mem_iff_getElem.1 inB
  rcases Nat.lt_trichotomy i j with before | rfl | after
  · have := List.pairwise_iff_getElem.1 ordered i j hi hj before
    omega
  · rfl
  · have := List.pairwise_iff_getElem.1 ordered j i hj hi after
    omega

-- What the visit of the candidates still has to account for, given what is kept.
def Accounted (spans kept : List (Span κ)) (cs : List (Candidate κ)) (c : Candidate κ) : Prop :=
  c.span ∈ spans ∨ (∃ k ∈ kept, c.span.overlaps k = true) ∨
    ∃ d ∈ cs, d.span ∈ spans ∧ d.priority < c.priority ∧ c.span.overlaps d.span = true

theorem Accounted.visit {grown : List (Span κ)} {c d : Candidate κ}
    (accounted : Accounted spans kept (c :: cs) d) (grows : ∀ k ∈ kept, k ∈ grown)
    (taken : c.span ∈ spans → c.span ∈ grown) : Accounted spans grown cs d := by
  rcases accounted with own | ⟨k, inKept, meet⟩ | ⟨e, place, inSpans, less, meet⟩
  · exact .inl own
  · exact .inr (.inl ⟨k, grows k inKept, meet⟩)
  · rcases List.mem_cons.1 place with rfl | place
    · exact .inr (.inl ⟨_, taken inSpans, meet⟩)
    · exact .inr (.inr ⟨e, place, inSpans, less, meet⟩)

theorem Accounted.of_free {c : Candidate κ} (accounted : Accounted spans kept (c :: cs) c)
    (free : ¬ kept.any c.span.overlaps = true) (first : ∀ d ∈ cs, c.priority ≤ d.priority) :
    c.span ∈ spans := by
  rcases accounted with own | ⟨k, inKept, meet⟩ | ⟨d, place, _, less, _⟩
  · exact own
  · exact absurd (List.any_eq_true.2 ⟨k, inKept, meet⟩) free
  · have least : c.priority ≤ d.priority := by
      rcases List.mem_cons.1 place with rfl | place
      · exact Int.le_refl _
      · exact first d place
    omega

-- The family is what is kept. A better candidate of the family cannot come later than
-- one that it excludes, so that one is always dropped on account of what is kept.
theorem keep_exact (apart : ∀ a ∈ spans, ∀ b ∈ spans, a.overlaps b = true → a = b)
    (filled : ∀ s ∈ spans, s.value ≠ [])
    (ranked : cs.Pairwise fun a b => a.priority ≤ b.priority)
    (within : ∀ s ∈ kept, s ∈ spans) (nodup : kept.Nodup)
    (accounted : ∀ c ∈ cs, Accounted spans kept cs c) :
    (∀ s ∈ keep kept cs, s ∈ spans) ∧ (∀ c ∈ cs, c.span ∈ spans → c.span ∈ keep kept cs) ∧
      (keep kept cs).Nodup := by
  induction cs generalizing kept with
  | nil => exact ⟨within, by simp, nodup⟩
  | cons c rest ih =>
    obtain ⟨first, later⟩ := List.pairwise_cons.1 ranked
    simp only [keep]
    split
    · next dropped =>
      obtain ⟨k, inKept, meet⟩ := List.any_eq_true.1 dropped
      have taken : c.span ∈ spans → c.span ∈ kept := fun own =>
        apart _ own k (within k inKept) meet ▸ inKept
      obtain ⟨inside, all, distinct⟩ := ih later within nodup fun d member =>
        (accounted d (by simp [member])).visit (fun _ old => old) taken
      refine ⟨inside, ?_, distinct⟩
      intro d place own
      rcases List.mem_cons.1 place with rfl | place
      · exact mem_keep_of_mem rest (taken own)
      · exact all d place own
    · next free =>
      have own : c.span ∈ spans := (accounted c (by simp)).of_free free first
      have fresh : c.span ∉ kept := fun old => free
        (List.any_eq_true.2 ⟨c.span, old, (Span.overlaps_self_iff c.span).2 (filled _ own)⟩)
      have inside' : ∀ s ∈ kept ++ [c.span], s ∈ spans := by
        intro s place
        cases List.mem_append.1 place with
        | inl old => exact within s old
        | inr new =>
          rw [List.mem_singleton.1 new]
          exact own
      have nodup' : (kept ++ [c.span]).Nodup := by
        refine List.nodup_append.2 ⟨nodup, by simp, ?_⟩
        intro a old b new same
        rw [List.mem_singleton.1 new] at same
        exact fresh (same ▸ old)
      obtain ⟨inside, all, distinct⟩ := ih later inside' nodup' fun d member =>
        (accounted d (by simp [member])).visit (fun _ old => List.mem_append_left _ old)
          fun _ => by simp
      refine ⟨inside, ?_, distinct⟩
      intro d place member
      rcases List.mem_cons.1 place with rfl | place
      · exact mem_keep_of_mem rest (by simp)
      · exact all d place member

theorem Settles.nodup (settles : Settles cs spans) : spans.Nodup := by
  refine settles.ordered.imp_of_mem ?_
  intro a b inA _ before same
  have := index_lt_stop (settles.filled a inA)
  rw [same] at before this
  omega

theorem ofCandidates_eq (settles : Settles cs spans) : ofCandidates cs = spans := by
  have sorting := List.mergeSort_perm cs Candidate.ranks
  have apart : ∀ a ∈ spans, ∀ b ∈ spans, a.overlaps b = true → a = b :=
    fun a inA b inB meet => eq_of_overlaps settles.ordered inA inB meet
  have ranked : (cs.mergeSort Candidate.ranks).Pairwise fun a b => a.priority ≤ b.priority :=
    (List.pairwise_mergeSort Candidate.ranks_trans Candidate.ranks_total cs).imp
      Candidate.priority_le_of_ranks
  have accounted : ∀ c ∈ cs.mergeSort Candidate.ranks,
      Accounted spans [] (cs.mergeSort Candidate.ranks) c := by
    intro c member
    rcases settles.covered c (sorting.mem_iff.1 member) with own | ⟨d, place, rest⟩
    · exact .inl own
    · exact .inr (.inr ⟨d, sorting.mem_iff.2 place, rest⟩)
  obtain ⟨inside, all, distinct⟩ :=
    keep_exact apart settles.filled ranked (by simp) List.nodup_nil accounted
  have same : (keep [] (cs.mergeSort Candidate.ranks)).Perm spans := by
    refine (List.perm_ext_iff_of_nodup distinct settles.nodup).2 fun s => ⟨inside s, fun own => ?_⟩
    obtain ⟨c, member, rfl⟩ := settles.proposed s own
    exact all c (sorting.mem_iff.2 member) own
  have sorted := List.pairwise_mergeSort earlier_trans earlier_total
    (keep [] (cs.mergeSort Candidate.ranks))
  have increasing : spans.Pairwise fun a b => earlier a b = true := by
    refine settles.ordered.imp_of_mem fun inA _ before => ?_
    have := index_lt_stop (settles.filled _ inA)
    simp only [earlier, decide_eq_true_eq]
    omega
  have both := (List.mergeSort_perm (keep [] (cs.mergeSort Candidate.ranks)) earlier).trans same
  refine both.eq_of_pairwise ?_ sorted increasing
  intro a b inA inB ab ba
  have ownA := both.mem_iff.1 inA
  refine apart a ownA b inB ?_
  have posA := index_lt_stop (settles.filled a ownA)
  have posB := index_lt_stop (settles.filled b inB)
  simp only [earlier, decide_eq_true_eq] at ab ba
  simp only [Span.overlaps, Bool.and_eq_true, decide_eq_true_eq]
  omega

end Cover
end OperatorCalculus
