import Mathlib.Data.List.Pairwise
import Mathlib.Data.List.Permutation
import OperatorCalculus.Proofs.Expression.Cover

namespace OperatorCalculus

namespace Cover

variable {κ : Type} {cs : List (Candidate κ)}

abbrev Entry (κ : Type) := Candidate κ × Nat

namespace Entry

variable {a b : Entry κ}

def span (e : Entry κ) : Span κ := e.1.span

-- The lower priority number first, then the longer span, then the smaller index, then the
-- earlier place.
def Precedes (a b : Entry κ) : Prop :=
  a.1.priority < b.1.priority ∨ a.1.priority = b.1.priority ∧
    (b.span.value.length < a.span.value.length ∨ b.span.value.length = a.span.value.length ∧
      (a.span.index < b.span.index ∨ a.span.index = b.span.index ∧ a.2 < b.2))

def Apart (a b : Entry κ) : Prop := a.span.overlaps b.span = false

theorem not_precedes_self : ¬ a.Precedes a := by
  unfold Precedes
  omega

theorem Precedes.asymm (ab : a.Precedes b) : ¬ b.Precedes a := by
  unfold Precedes at ab ⊢
  omega

theorem Apart.symm (ab : a.Apart b) : b.Apart a := by
  unfold Apart at ab ⊢
  rw [Span.overlaps_comm, ab]

instance : Std.Symm (@Apart κ) := ⟨fun _ _ => Apart.symm⟩

theorem not_apart_self (filled : a.span.value ≠ []) : ¬ a.Apart a := by
  unfold Apart
  rw [(Span.overlaps_self_iff a.span).2 filled]
  exact Bool.noConfusion

theorem not_apart_of_index (filledA : a.span.value ≠ []) (filledB : b.span.value ≠ [])
    (same : a.span.index = b.span.index) : ¬ a.Apart b := by
  have posA := index_lt_stop filledA
  have posB := index_lt_stop filledB
  simp only [Apart, Span.overlaps, Bool.and_eq_false_iff, decide_eq_false_iff_not]
  omega

theorem precedes_of_sorted (sorted : List.zipIdxLE Candidate.ranks a b = true) (other : a.2 ≠ b.2) :
    a.Precedes b := by
  have ranked : a.1.ranks b.1 = true ∧ (b.1.ranks a.1 = true → a.2 ≤ b.2) := by
    unfold List.zipIdxLE at sorted
    split at sorted
    · next first =>
      refine ⟨first, fun second => ?_⟩
      rw [if_pos second, decide_eq_true_eq] at sorted
      exact sorted
    · cases sorted
  simp only [Candidate.ranks, Bool.or_eq_true, Bool.and_eq_true, decide_eq_true_eq, beq_iff_eq] at ranked
  unfold Precedes span
  omega

end Entry

open Entry

def visit (kept : List (Entry κ)) : List (Entry κ) → List (Entry κ)
  | [] => kept
  | e :: rest =>
    if kept.any fun k => e.span.overlaps k.span then visit kept rest else visit (kept ++ [e]) rest

theorem keep_visited (es : List (Entry κ)) (kept : List (Entry κ)) :
    keep (kept.map span) (es.map Prod.fst) = (visit kept es).map span := by
  induction es generalizing kept with
  | nil => rfl
  | cons e rest ih =>
    have meets : (kept.map span).any e.1.span.overlaps = kept.any fun k => e.span.overlaps k.span :=
      List.any_map
    rw [List.map_cons, keep, visit, meets]
    split
    · exact ih kept
    · rw [← ih, List.map_append]
      rfl

theorem mem_visit_of_mem {e : Entry κ} (es : List (Entry κ)) :
    ∀ {kept : List (Entry κ)}, e ∈ kept → e ∈ visit kept es := by
  induction es with
  | nil => exact fun member => member
  | cons f rest ih =>
    intro kept member
    unfold visit
    split
    · exact ih member
    · exact ih (List.mem_append_left _ member)

theorem mem_of_mem_visit {e : Entry κ} (es : List (Entry κ)) :
    ∀ {kept : List (Entry κ)}, e ∈ visit kept es → e ∈ kept ∨ e ∈ es := by
  induction es with
  | nil => exact fun member => .inl member
  | cons f rest ih =>
    intro kept member
    unfold visit at member
    split at member
    · exact (ih member).imp_right (List.mem_cons_of_mem f)
    · rcases ih member with before | later
      · rcases List.mem_append.1 before with old | new
        · exact .inl old
        · exact .inr (List.mem_singleton.1 new ▸ List.mem_cons_self)
      · exact .inr (List.mem_cons_of_mem f later)

variable {es kept : List (Entry κ)}

theorem visit_apart (apart : kept.Pairwise Apart) : (visit kept es).Pairwise Apart := by
  induction es generalizing kept with
  | nil => exact apart
  | cons e rest ih =>
    unfold visit
    split
    · exact ih apart
    · next free =>
      apply ih
      refine List.pairwise_append.2 ⟨apart, List.pairwise_singleton .., fun k member f new => ?_⟩
      rw [List.mem_singleton.1 new]
      apply Apart.symm
      have clear := fun meet => free (List.any_eq_true.2 ⟨k, member, meet⟩)
      exact Bool.eq_false_iff.2 clear

theorem visit_blamed (ranked : (kept ++ es).Pairwise Precedes) :
    ∀ e ∈ es, e ∉ visit kept es →
      ∃ k ∈ visit kept es, k.Precedes e ∧ e.span.overlaps k.span = true := by
  induction es generalizing kept with
  | nil => intro e member; cases member
  | cons e rest ih =>
    have moved : ((kept ++ [e]) ++ rest).Pairwise Precedes := by
      rwa [List.append_assoc, List.singleton_append]
    have passed : (kept ++ rest).Pairwise Precedes :=
      ranked.sublist ((List.sublist_cons_self e rest).append_left kept)
    intro f member left
    unfold visit at left ⊢
    split at left
    · next dropped =>
      rw [if_pos dropped]
      rcases List.mem_cons.1 member with rfl | later
      · obtain ⟨k, inKept, meet⟩ := List.any_eq_true.1 dropped
        have first := (List.pairwise_append.1 ranked).2.2 k inKept f List.mem_cons_self
        exact ⟨k, mem_visit_of_mem rest inKept, first, meet⟩
      · exact ih passed f later left
    · next free =>
      rw [if_neg free]
      rcases List.mem_cons.1 member with rfl | later
      · exact absurd (mem_visit_of_mem rest (List.mem_append_right _ (List.mem_singleton_self f))) left
      · exact ih moved f later left

-- The greedy family among the candidates, in the order of the text. Which family that is its
-- conditions say without a run: a candidate is left out only on account of one that is not.
structure Greedy (cs : List (Candidate κ)) (kept : List (Entry κ)) : Prop where
  given : ∀ e ∈ kept, e ∈ cs.zipIdx
  ordered : kept.Pairwise fun a b => a.span.index ≤ b.span.index
  apart : kept.Pairwise Apart
  blamed : ∀ e : Entry κ, e ∈ cs.zipIdx → e ∉ kept →
    ∃ k ∈ kept, k.Precedes e ∧ e.span.overlaps k.span = true

def Filled (cs : List (Candidate κ)) : Prop := ∀ c ∈ cs, c.span.value ≠ []

theorem Filled.entry (filled : Filled cs) {e : Entry κ} (member : e ∈ cs.zipIdx) : e.span.value ≠ [] :=
  filled e.1 (List.fst_mem_of_mem_zipIdx member)

def ranked (cs : List (Candidate κ)) : List (Entry κ) := cs.zipIdx.mergeSort (List.zipIdxLE Candidate.ranks)

theorem mem_ranked {e : Entry κ} : e ∈ ranked cs ↔ e ∈ cs.zipIdx :=
  (List.mergeSort_perm cs.zipIdx _).mem_iff

theorem ranked_precedes (cs : List (Candidate κ)) : (ranked cs).Pairwise Precedes := by
  have sorted : (ranked cs).Pairwise fun a b => List.zipIdxLE Candidate.ranks a b = true :=
    List.pairwise_mergeSort (List.zipIdxLE_trans Candidate.ranks_trans)
      (List.zipIdxLE_total Candidate.ranks_total) cs.zipIdx
  have places : ((ranked cs).map Prod.snd).Nodup := by
    have shuffled : ((ranked cs).map Prod.snd).Perm (cs.zipIdx.map Prod.snd) :=
      (List.mergeSort_perm cs.zipIdx _).map Prod.snd
    rw [shuffled.nodup_iff, List.zipIdx_map_snd]
    exact List.nodup_range'
  exact (sorted.and (List.pairwise_map.1 places)).imp fun both => precedes_of_sorted both.1 both.2

def chosen (cs : List (Candidate κ)) : List (Entry κ) :=
  (visit [] (ranked cs)).mergeSort fun a b => earlier a.span b.span

theorem ofCandidates_chosen (cs : List (Candidate κ)) : ofCandidates cs = (chosen cs).map span := by
  have visited : keep [] (cs.mergeSort Candidate.ranks) = (visit [] (ranked cs)).map span := by
    rw [← keep_visited, ranked, List.mergeSort_zipIdx]
    rfl
  unfold ofCandidates chosen
  rw [visited]
  have alike : ∀ a ∈ visit [] (ranked cs), ∀ b ∈ visit [] (ranked cs),
      earlier a.span b.span = earlier (span a) (span b) := fun _ _ _ _ => rfl
  exact (List.map_mergeSort alike).symm

theorem mem_chosen {e : Entry κ} : e ∈ chosen cs ↔ e ∈ visit [] (ranked cs) :=
  (List.mergeSort_perm _ _).mem_iff

theorem chosen_greedy (cs : List (Candidate κ)) : Greedy cs (chosen cs) := by
  refine ⟨?_, ?_, ?_, ?_⟩
  · intro e member
    rcases mem_of_mem_visit _ (mem_chosen.1 member) with before | inside
    · cases before
    · exact mem_ranked.1 inside
  · exact (List.pairwise_mergeSort (fun a b c => earlier_trans a.span b.span c.span)
      (fun a b => earlier_total a.span b.span) _).imp fun before => of_decide_eq_true before
  · exact ((List.mergeSort_perm _ _).pairwise_iff Apart.symm).2 (visit_apart List.Pairwise.nil)
  · intro e member left
    rw [mem_chosen] at left
    obtain ⟨k, inside, before, meet⟩ := visit_blamed (ranked_precedes cs) e (mem_ranked.2 member) left
    exact ⟨k, mem_chosen.2 inside, before, meet⟩

variable {other : List (Entry κ)}

theorem Greedy.eq_of_overlaps (greedy : Greedy cs other) {a b : Entry κ} (inA : a ∈ other)
    (inB : b ∈ other) (meet : a.span.overlaps b.span = true) : a = b := by
  by_contra differ
  have apart : a.Apart b := greedy.apart.forall inA inB differ
  unfold Apart at apart
  rw [meet] at apart
  cases apart

theorem mem_visit_iff (greedy : Greedy cs other) (inOrder : (kept ++ es).Pairwise Precedes)
    (given : ∀ e ∈ es, e ∈ cs.zipIdx) (within : ∀ k ∈ kept, k ∈ other)
    (left : ∀ e ∈ other, e ∈ kept ∨ e ∈ es) (e : Entry κ) : e ∈ visit kept es ↔ e ∈ other := by
  induction es generalizing kept with
  | nil =>
    refine ⟨within e, fun member => ?_⟩
    exact (left e member).resolve_right List.not_mem_nil
  | cons f rest ih =>
    have before : ∀ k ∈ kept, k.Precedes f := fun k inKept =>
      (List.pairwise_append.1 inOrder).2.2 k inKept f List.mem_cons_self
    have behind : ∀ k ∈ rest, f.Precedes k :=
      (List.pairwise_cons.1 (List.pairwise_append.1 inOrder).2.1).1
    have givenRest : ∀ e ∈ rest, e ∈ cs.zipIdx := fun e later => given e (List.mem_cons_of_mem _ later)
    unfold visit
    split
    · next dropped =>
      obtain ⟨k, inKept, meet⟩ := List.any_eq_true.1 dropped
      -- What the visit drops overlaps something of the family, so it is not in it.
      have outside : f ∉ other := by
        intro inside
        have same := greedy.eq_of_overlaps inside (within k inKept) meet
        exact not_precedes_self (same ▸ before k inKept)
      apply ih (inOrder.sublist ((List.sublist_cons_self f rest).append_left kept)) givenRest within
      intro e member
      rcases left e member with inKept | place
      · exact .inl inKept
      · rcases List.mem_cons.1 place with rfl | later
        · exact absurd member outside
        · exact .inr later
    · next free =>
      -- What it keeps can be blamed on nothing: the blamed one would have come before.
      have inside : f ∈ other := by
        by_contra outside
        obtain ⟨k, member, first, meet⟩ := greedy.blamed f (given f List.mem_cons_self) outside
        rcases left k member with inKept | place
        · exact free (List.any_eq_true.2 ⟨k, inKept, meet⟩)
        · rcases List.mem_cons.1 place with rfl | later
          · exact outside member
          · exact first.asymm (behind k later)
      apply ih
      · rwa [List.append_assoc, List.singleton_append]
      · exact givenRest
      · intro k member
        rcases List.mem_append.1 member with inKept | new
        · exact within k inKept
        · rwa [List.mem_singleton.1 new]
      · intro e member
        rcases left e member with inKept | place
        · exact .inl (List.mem_append_left _ inKept)
        · rcases List.mem_cons.1 place with rfl | later
          · exact .inl (List.mem_append_right _ (List.mem_singleton_self e))
          · exact .inr later

theorem Greedy.mem_iff (greedy : Greedy cs other) (e : Entry κ) : e ∈ chosen cs ↔ e ∈ other := by
  rw [mem_chosen]
  exact mem_visit_iff greedy (ranked_precedes cs) (fun e => mem_ranked.1) (by simp)
    (fun e member => .inr (mem_ranked.2 (greedy.given e member))) e

theorem Greedy.nodup (filled : Filled cs) (greedy : Greedy cs other) : other.Nodup := by
  refine greedy.apart.imp_of_mem fun {a b} inA _ apart same => ?_
  exact not_apart_self (filled.entry (greedy.given a inA)) (same ▸ apart)

theorem Greedy.unique (filled : Filled cs) (greedy : Greedy cs other) : other = chosen cs := by
  have own := chosen_greedy cs
  have perm : other.Perm (chosen cs) :=
    (List.perm_ext_iff_of_nodup (greedy.nodup filled) (own.nodup filled)).2 fun e => (greedy.mem_iff e).symm
  refine perm.eq_of_pairwise ?_ greedy.ordered own.ordered
  intro a b inA inB before after
  apply greedy.eq_of_overlaps inA (perm.mem_iff.2 inB)
  apply Bool.of_not_eq_false
  exact not_apart_of_index (filled.entry (greedy.given a inA)) (filled.entry (own.given b inB))
    (Nat.le_antisymm before after)

-- Candidates that agree in all that ranks them are the same but for their places.
def Unambiguous (cs : List (Candidate κ)) : Prop :=
  ∀ a ∈ cs, ∀ b ∈ cs, a.priority = b.priority → a.span.index = b.span.index →
    a.span.value.length = b.span.value.length →
    a.span.value = b.span.value ∧ a.span.kind = b.span.kind

theorem Unambiguous.eq_of_ranks (plain : Unambiguous cs) {a b : Candidate κ} (inA : a ∈ cs) (inB : b ∈ cs)
    (ab : a.ranks b = true) (ba : b.ranks a = true) : a = b := by
  simp only [Candidate.ranks, Bool.or_eq_true, Bool.and_eq_true, decide_eq_true_eq, beq_iff_eq] at ab ba
  have priority : a.priority = b.priority := by omega
  have index : a.span.index = b.span.index := by omega
  have length : a.span.value.length = b.span.value.length := by omega
  obtain ⟨value, kind⟩ := plain a inA b inB priority index length
  obtain ⟨_, _, _, _⟩ := a
  obtain ⟨_, _, _, _⟩ := b
  simp only at priority index value kind
  simp [priority, index, value, kind]

theorem ofCandidates_perm (plain : Unambiguous cs) {shuffled : List (Candidate κ)} (perm : shuffled.Perm cs) :
    ofCandidates shuffled = ofCandidates cs := by
  have sorting : ∀ l : List (Candidate κ), (l.mergeSort Candidate.ranks).Pairwise fun a b => a.ranks b = true :=
    List.pairwise_mergeSort Candidate.ranks_trans Candidate.ranks_total
  have both : (shuffled.mergeSort Candidate.ranks).Perm (cs.mergeSort Candidate.ranks) :=
    ((List.mergeSort_perm _ _).trans perm).trans (List.mergeSort_perm _ _).symm
  have same : shuffled.mergeSort Candidate.ranks = cs.mergeSort Candidate.ranks := by
    refine both.eq_of_pairwise ?_ (sorting shuffled) (sorting cs)
    intro a b inA inB
    exact plain.eq_of_ranks (perm.mem_iff.1 (List.mem_mergeSort.1 inA)) (List.mem_mergeSort.1 inB)
  unfold ofCandidates
  rw [same]

-- The cover holds the spans of the one greedy family. Where the places decide nothing, the order
-- in which the candidates are given makes no difference.
theorem cover_is_greedy (filled : Filled cs) :
    (∃ kept, Greedy cs kept ∧ ofCandidates cs = kept.map span ∧
      ∀ other, Greedy cs other → other = kept) ∧
    (Unambiguous cs → ∀ shuffled : List (Candidate κ), shuffled.Perm cs →
      ofCandidates shuffled = ofCandidates cs) := by
  constructor
  · exact ⟨chosen cs, chosen_greedy cs, ofCandidates_chosen cs, fun other greedy => greedy.unique filled⟩
  · exact fun plain shuffled perm => ofCandidates_perm plain perm

-- The span in the middle is dropped on account of the first alone, so it hides nothing of the
-- last. That one is given twice, and the earlier of the two is kept.
theorem cover_is_greedy_chain :
    let last : Candidate Kind := ⟨2, "xyz".toList, 5, .text⟩
    let cs : List (Candidate Kind) :=
      [last, ⟨1, "wxyz".toList, 2, .function⟩, ⟨0, "abc".toList, 0, .variable⟩, last]
    Filled cs ∧ Unambiguous cs ∧
      (∃ kept, Greedy cs kept ∧ ofCandidates cs = kept.map span ∧
        ∀ other, Greedy cs other → other = kept) ∧
      ofCandidates cs.reverse = ofCandidates cs ∧
      ofCandidates cs = [⟨"abc".toList, 0, .variable⟩, ⟨"xyz".toList, 5, .text⟩] := by
  intro last cs
  have filled : Filled cs := by unfold Filled; decide
  have plain : Unambiguous cs := by unfold Unambiguous; decide
  obtain ⟨greedy, same⟩ := cover_is_greedy filled
  exact ⟨filled, plain, greedy, same plain cs.reverse cs.reverse_perm, by cbv⟩

end Cover
end OperatorCalculus
