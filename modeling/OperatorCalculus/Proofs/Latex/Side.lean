import OperatorCalculus.Latex.RuleLine
import OperatorCalculus.Proofs.Text.Trim

namespace OperatorCalculus

namespace RuleLine

variable {t : Text}

def Bordered (t : Text) : Prop := t.head? = some ',' ∨ t.reverse.head? = some ','

instance (t : Text) : Decidable (Bordered t) := inferInstanceAs (Decidable (_ ∨ _))

theorem count_clean (t : Text) : (clean t).count ',' = (stripEdges t).count ',' := by
  unfold clean dropBackslashes
  rw [Text.count_trim rfl, List.count_reverse, Text.count_dropWhile rfl, List.count_reverse]

theorem dropFrontComma_of_other (other : t.head? ≠ some ',') : dropFrontComma t = t := by
  unfold dropFrontComma
  split
  · exact absurd rfl other
  · rfl

theorem dropBackComma_of_comma {u : Text} (last : t.reverse = ',' :: u) : dropBackComma t = u.reverse := by
  unfold dropBackComma
  rw [last]
  rfl

theorem dropBackComma_of_other (trimmed : ∀ c, t.reverse.head? = some c → Text.isBlank c = false)
    (other : t.reverse.head? ≠ some ',') : dropBackComma t = t := by
  unfold dropBackComma
  rw [Text.dropWhile_of_head trimmed]
  split
  · next last => exact absurd (congrArg List.head? last) other
  · rfl

theorem count_dropBackComma_le (t : Text) : (dropBackComma t).count ',' ≤ t.count ',' := by
  unfold dropBackComma
  split
  · next u last =>
    have kept := Text.count_dropWhile (c := ',') (p := Text.isBlank) rfl t.reverse
    rw [last, List.count_cons_self, List.count_reverse] at kept
    rw [List.count_reverse]
    omega
  · exact Nat.le_refl _

theorem stripEdges_of_not_bordered (trimmed : Text.Trimmed t) (free : ¬ Bordered t) : stripEdges t = t := by
  obtain ⟨noFront, noBack⟩ := not_or.1 free
  unfold stripEdges
  rw [dropFrontComma_of_other noFront, dropBackComma_of_other trimmed.back noBack]

theorem count_stripEdges_lt (bordered : Bordered t) : (stripEdges t).count ',' < t.count ',' := by
  unfold stripEdges
  by_cases front : t.head? = some ','
  · obtain ⟨rest, rfl⟩ : ∃ rest, t = ',' :: rest := List.head?_eq_some_iff.1 front
    have fewer := count_dropBackComma_le (Text.trimLeft rest)
    have same : (Text.trimLeft rest).count ',' = rest.count ',' := Text.count_dropWhile rfl rest
    rw [List.count_cons_self]
    exact Nat.lt_succ_of_le (Nat.le_trans fewer (Nat.le_of_eq same))
  · rw [dropFrontComma_of_other front]
    obtain ⟨rest, last⟩ : ∃ rest, t.reverse = ',' :: rest :=
      List.head?_eq_some_iff.1 (bordered.resolve_left front)
    rw [dropBackComma_of_comma last, List.count_reverse, ← List.count_reverse (l := t), last,
      List.count_cons_self]
    exact Nat.lt_succ_self _

theorem stripEdges_wrap (trimmed : Text.Trimmed t) (filled : t ≠ []) : stripEdges (wrap t) = t := by
  obtain ⟨c, rest, rfl⟩ := List.exists_cons_of_ne_nil filled
  have visible := trimmed.front c rfl
  have front : dropFrontComma (wrap (c :: rest)) = c :: rest ++ [','] := by
    change Text.trimLeft (c :: (rest ++ [','])) = _
    exact List.dropWhile_cons_of_neg (by simp [visible])
  unfold stripEdges
  rw [front, dropBackComma_of_comma (List.reverse_concat ..), List.reverse_reverse]

theorem clean_wrap_eq_iff (trimmed : Text.Trimmed t) (filled : t ≠ []) :
    clean (wrap t) = clean t ↔ ¬ Bordered t := by
  have wrapped := stripEdges_wrap trimmed filled
  constructor
  · intro same bordered
    have counts := congrArg (List.count ',') same
    rw [count_clean, count_clean, wrapped] at counts
    exact absurd counts (Nat.ne_of_gt (count_stripEdges_lt bordered))
  · intro free
    unfold clean
    rw [wrapped, stripEdges_of_not_bordered trimmed free]

theorem wrap_ne_nil (side : Text) : wrap side ≠ [] := by
  cases side with
  | nil => exact List.cons_ne_nil _ _
  | cons c t => exact List.cons_ne_nil _ _

theorem wrap_inj {s : Text} : wrap s = wrap t ↔ s = t := by
  constructor
  · intro same
    cases s with
    | nil =>
      cases t with
      | nil => rfl
      | cons c t => simp [wrap] at same
    | cons c s =>
      cases t with
      | nil => simp [wrap] at same
      | cons d t => simpa [wrap] using same
  · exact congrArg wrap

theorem trimmed_of_split {line : Text} {sides : Sides} (stated : split? line = some sides) :
    Text.Trimmed sides.left ∧ Text.Trimmed sides.right := by
  unfold split? at stated
  split at stated
  · cases stated
  · obtain ⟨parted, _, rfl⟩ := Option.map_eq_some_iff.1 stated
    exact ⟨Text.trimmed_trim _, Text.trimmed_trim _⟩

end RuleLine
end OperatorCalculus
