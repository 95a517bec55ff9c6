import Mathlib.Data.List.Basic
import Mathlib.Data.List.TakeWhile
import OperatorCalculus.Proofs.Latex.Recall
import OperatorCalculus.Proofs.Latex.Side
import OperatorCalculus.Proofs.Text.Separator

namespace OperatorCalculus

namespace RuleLine

variable {l r t : Text}

-- A side that a line can hold as it is: no sign and no marker in it, and at its ends nothing that
-- trimming takes off. Headings in it do not matter: they say what the rule is filed under, not
-- what its sides are.
structure Clean (t : Text) : Prop where
  filled : t ≠ []
  oneLine : '\n' ∉ t
  signless : Text.contains equivalence t = false
  unopened : ProofBlock.opens t = false
  unclosed : ProofBlock.closes t = false
  front : ∀ c ∈ t.head?, c ≠ ',' ∧ Text.isBlank c = false
  back : ∀ c ∈ t.getLast?, c ≠ ',' ∧ Text.isBlank c = false ∧ c ≠ '\\'

instance (t : Text) : Decidable (Clean t) :=
  decidable_of_iff (t ≠ [] ∧ '\n' ∉ t ∧ Text.contains equivalence t = false ∧
      ProofBlock.opens t = false ∧ ProofBlock.closes t = false ∧
      (t.head?.all fun c => c != ',' && !Text.isBlank c) = true ∧
      (t.getLast?.all fun c => c != ',' && !Text.isBlank c && c != '\\') = true)
    (by
      simp only [Option.all_eq_true, Bool.and_eq_true, bne_iff_ne, Bool.not_eq_true', and_assoc]
      exact ⟨fun ⟨filled, oneLine, signless, unopened, unclosed, front, back⟩ =>
          ⟨filled, oneLine, signless, unopened, unclosed, front, back⟩,
        fun clean => ⟨clean.filled, clean.oneLine, clean.signless, clean.unopened, clean.unclosed,
          clean.front, clean.back⟩⟩)

def written (l r : Text) : Text :=
  "\\[,".toList ++ l ++ ", \\Rq ,".toList ++ r ++ ",\\]".toList

theorem written_eq (l r : Text) : written l r =
    openMark ++ ',' :: (l ++ ',' :: (" \\Rq ".toList ++ ',' :: (r ++ ',' :: closeMark))) := by
  unfold written openMark closeMark
  simp

def signed (r : Text) : Text := ',' :: (" \\Rq ".toList ++ ',' :: (r ++ [',']))

def inner (l r : Text) : Text := ',' :: (l ++ signed r)

theorem Clean.trimmed (clean : Clean t) : Text.Trimmed t := by
  refine ⟨fun c first => (clean.front c first).2, fun c last => ?_⟩
  rw [List.head?_reverse] at last
  exact (clean.back c last).2.1

theorem Clean.not_bordered (clean : Clean t) : ¬ Bordered t := by
  intro bordered
  rcases bordered with first | last
  · exact (clean.front ',' first).1 rfl
  · rw [List.head?_reverse] at last
    exact (clean.back ',' last).1 rfl

theorem Clean.stripEdges_eq (clean : Clean t) : stripEdges t = t :=
  stripEdges_of_not_bordered clean.trimmed clean.not_bordered

theorem Clean.clean_eq (clean : Clean t) : RuleLine.clean t = t := by
  have kept : dropBackslashes t = t := by
    unfold dropBackslashes
    rw [Text.dropWhile_of_head, List.reverse_reverse]
    intro c last
    rw [List.head?_reverse] at last
    simpa [isBackslash] using (clean.back c last).2.2
  unfold RuleLine.clean
  rw [clean.stripEdges_eq, kept, Text.trim_of_trimmed clean.trimmed]

theorem Clean.tidyLeft_eq (clean : Clean t) : tidyLeft (',' :: t) = t := by
  have trimmed : Text.Trimmed (',' :: t) := by
    refine ⟨fun c first => ?_, fun c last => ?_⟩
    · cases first
      rfl
    · rw [List.head?_reverse, List.getLast?_cons_of_ne_nil clean.filled] at last
      exact (clean.back c last).2.1
  have front : dropFrontComma (',' :: t) = t := Text.dropWhile_of_head clean.trimmed.front
  unfold tidyLeft
  rw [Text.trim_of_trimmed trimmed, front, clean.stripEdges_eq, Text.trim_of_trimmed clean.trimmed]

theorem Clean.tidyRight_eq (clean : Clean t) : tidyRight (t ++ [',']) = t := by
  have trimmed : Text.Trimmed (t ++ [',']) := by
    refine ⟨fun c first => ?_, fun c last => ?_⟩
    · rw [List.head?_append_of_ne_nil _ clean.filled] at first
      exact (clean.front c first).2
    · rw [List.reverse_concat] at last
      cases last
      rfl
  have back : dropBackComma (t ++ [',']) = t := by
    rw [dropBackComma_of_comma List.reverse_concat, List.reverse_reverse]
  unfold tidyRight
  rw [Text.trim_of_trimmed trimmed, back, clean.stripEdges_eq, Text.trim_of_trimmed clean.trimmed]

theorem findLast?_closeMark (body : Text) : Text.findLast? closeMark (body ++ closeMark) = some body.length := by
  induction body with
  | nil => rfl
  | cons c body ih =>
    rw [List.cons_append, Text.findLast?, ih]
    rfl

theorem content?_written (l r : Text) : content? (written l r) = some (inner l r) := by
  have whole : written l r = openMark ++ inner l r ++ closeMark := by
    rw [written_eq]
    simp [inner, signed]
  have stated : Text.contains equivalence (written l r) = true := by
    rw [Text.contains_iff]
    exact ⟨"\\[,".toList ++ l ++ ", ".toList, " ,".toList ++ r ++ ",\\]".toList, by simp [written, equivalence]⟩
  have opened : Text.find? openMark (written l r) = some 0 := by
    rw [whole]
    rfl
  have closed : Text.findLast? closeMark (written l r) = some (openMark ++ inner l r).length := by
    rw [whole]
    exact findLast?_closeMark _
  have between : ¬ (openMark ++ inner l r).length ≤ 0 := by simp [openMark]
  unfold content?
  rw [if_pos stated, opened, closed]
  simp only [if_neg between]
  rw [whole, List.take_left, Nat.zero_add, List.drop_left]

theorem part?_append {lead : Lead} {after : Text} {repeats : Bool} {s t : Text} (some_ : t ≠ [])
    (silent : ∀ u, u ≠ [] → u <:+ s → partHere? lead (u ++ t) = none)
    (here : partHere? lead t = some ⟨[], after, repeats⟩) :
    part? lead (s ++ t) = some ⟨s, after, repeats⟩ := by
  induction s with
  | nil =>
    cases t with
    | nil => exact absurd rfl some_
    | cons c t =>
      rw [List.nil_append, part?, here]
  | cons c s ih =>
    have nothing := silent (c :: s) (List.cons_ne_nil c s) (List.suffix_refl _)
    rw [List.cons_append] at nothing ⊢
    rw [part?, nothing, ih fun u filled tail => silent u filled (tail.trans (List.suffix_cons c s))]
    rfl

theorem Clean.no_sign_inside (clean : Clean l) {u rest : Text} (tail : u <:+ l) (filled : u ≠ []) :
    signHere? (Text.trimLeft (u ++ ',' :: rest)) = none := by
  have visible : Text.trimLeft u ≠ [] := by
    intro blank
    have all := List.dropWhile_eq_nil_iff.1 blank
    have last := List.getLast?_eq_some_getLast filled
    have lastOfSide : l.getLast? = some (u.getLast filled) := by
      obtain ⟨front, rfl⟩ := tail
      rw [List.getLast?_append_of_ne_nil _ filled, last]
    cases (all _ (List.getLast_mem filled)).symm.trans (clean.back _ lastOfSide).2.1
  have cut : Text.trimLeft (u ++ ',' :: rest) = Text.trimLeft u ++ ',' :: rest := by
    unfold Text.trimLeft at visible ⊢
    rw [List.dropWhile_append, if_neg (by simpa using visible)]
  unfold signHere?
  rw [cut, if_neg]
  intro here
  have inside := Text.prefix_of_prefix_append_cons (by decide) (List.isPrefixOf_iff_prefix.1 here)
  have stands : equivalence <:+: l :=
    inside.isInfix.trans ((List.dropWhile_suffix _).trans tail).isInfix
  cases clean.signless.symm.trans (Text.contains_iff.2 stands)

theorem Clean.behind_comma (clean : Clean l) {u : Text} (tail : ',' :: u <:+ ',' :: l) : u ≠ [] ∧ u <:+ l := by
  rcases List.suffix_cons_iff.1 tail with whole | inside
  · obtain rfl := (List.cons.inj whole).2
    exact ⟨clean.filled, List.suffix_refl _⟩
  · refine ⟨?_, (List.suffix_cons ',' u).trans inside⟩
    rintro rfl
    obtain ⟨front, rfl⟩ := inside
    exact (clean.back ',' List.getLast?_concat).1 rfl

theorem part?_inner (clean : Clean l) (r : Text) :
    part? .comma (inner l r) = some ⟨',' :: l, r ++ [','], false⟩ := by
  have here : partHere? .comma (signed r) = some ⟨[], r ++ [','], false⟩ := rfl
  apply part?_append (s := ',' :: l) (t := signed r) (List.cons_ne_nil _ _) _ here
  intro u filled tail
  obtain ⟨c, u, rfl⟩ := List.exists_cons_of_ne_nil filled
  by_cases comma : c = ','
  · subst comma
    obtain ⟨more, inSide⟩ := clean.behind_comma tail
    have nothing : signHere? (Text.trimLeft (u ++ signed r)) = none :=
      clean.no_sign_inside inSide more
    have passed : Lead.comma.pass (',' :: u ++ signed r) = some (Text.trimLeft (u ++ signed r)) := rfl
    rw [partHere?, passed]
    exact congrArg (Option.map _) nothing
  · have passed : Lead.comma.pass (c :: u ++ signed r) = none :=
      Lead.pass.eq_2 _ fun rest same => comma (List.cons.inj same).1
    rw [partHere?, passed]

theorem split?_written (left : Clean l) (right : Clean r) : split? (written l r) = some ⟨l, r, false⟩ := by
  unfold split?
  rw [content?_written]
  simp only [leads, List.findSome?_cons, part?_inner left, Option.map_some, left.tidyLeft_eq, right.tidyRight_eq]

theorem not_contains_written {part : Text} (free : ',' ∉ part)
    (frame : ∀ piece ∈ [openMark, " \\Rq ".toList, closeMark], Text.contains part piece = false)
    (left : Text.contains part l = false) (right : Text.contains part r = false) :
    Text.contains part (written l r) = false := by
  rw [written_eq]
  simp only [Text.contains_append_cons free, left, right, Bool.false_or, Bool.or_eq_false_iff]
  exact ⟨frame _ (by simp), frame _ (by simp), frame _ (by simp)⟩

theorem written_trimmed (l r : Text) : Text.Trimmed (written l r) := by
  refine ⟨fun c first => ?_, fun c last => ?_⟩
  · rw [written_eq] at first
    cases first
    rfl
  · rw [List.head?_reverse, written, List.getLast?_append_of_ne_nil _ (by decide)] at last
    cases last
    rfl

theorem unmarked_written (left : Clean l) (right : Clean r) :
    ProofBlock.opens (written l r) = false ∧ ProofBlock.closes (written l r) = false := by
  constructor
  · refine List.any_eq_false.2 fun m member => ?_
    have free : ∀ m ∈ ProofBlock.startMarkers, ',' ∉ m := by decide
    have frame : ∀ m ∈ ProofBlock.startMarkers, ∀ piece ∈ [openMark, " \\Rq ".toList, closeMark],
        Text.contains m piece = false := by decide
    rw [not_contains_written (free m member) (frame m member)]
    · exact Bool.noConfusion
    · exact Bool.eq_false_iff.2 (List.any_eq_false.1 left.unopened m member)
    · exact Bool.eq_false_iff.2 (List.any_eq_false.1 right.unopened m member)
  · exact not_contains_written (by decide) (by decide) left.unclosed right.unclosed

end RuleLine

namespace Source

open RuleLine

variable {l r : Text}

theorem visible?_written (left : Clean l) (right : Clean r) :
    visible? false (written l r) = some (written l r) := by
  obtain ⟨unopened, unclosed⟩ := unmarked_written left right
  refine visible?_eq_some_iff.2 ⟨(Text.trim_of_trimmed (written_trimmed l r)).symm, ?_, unopened, unclosed, rfl⟩
  rw [written_eq]
  rfl

theorem fileRule_clean (left : Clean l) (right : Clean r) (apart : l ≠ repetition) (path : Text) (p : Progress) :
    ∃ rule : Rule, rule.left = ',' :: l ++ [','] ∧ rule.right = ',' :: r ++ [','] ∧
      (fileRule path ⟨l, r, false⟩ p).rules = p.rules ++ [rule] := by
  have some_ : emptyLeft ⟨l, r, false⟩ = false := by
    have comma : l ≠ [','] := fun same => (left.front ',' (by rw [same]; rfl)).1 rfl
    simp [emptyLeft, left.filled, comma]
  have leftOf : p.context.leftOf ⟨l, r, false⟩ = l := by
    have own : p.context.expandLeft ⟨l, r, false⟩ = l := by simp [Context.expandLeft, apart]
    rw [Context.leftOf, own, left.clean_eq]
  have rightOf : p.context.rightOf ⟨l, r, false⟩ = r := by
    have own : p.context.expandRight ⟨l, r, false⟩ = r := by simp [Context.expandRight]
    rw [Context.rightOf, own, right.clean_eq]
  have kept : p.context.drops ⟨l, r, false⟩ = false := by
    unfold Context.drops
    rw [some_, leftOf]
    simp [left.filled]
  refine ⟨p.context.ruleOf ⟨l, r, false⟩ path p.rules.length, ?_, ?_, ?_⟩
  · rw [Context.ruleOf_left, leftOf]
    simp [wrap, left.filled]
  · rw [Context.ruleOf_right, rightOf]
    simp [wrap, right.filled]
  · rw [fileRule_eq, kept]
    rfl

theorem next_written (path : Text) (left : Clean l) (right : Clean r) (apart : l ≠ repetition)
    {s : Reading} (outside : s.isOpen = false) :
    (s.next path (written l r)).isOpen = false ∧
      ∃ rule : Rule, rule.left = ',' :: l ++ [','] ∧ rule.right = ',' :: r ++ [','] ∧
        (s.next path (written l r)).progress.rules = s.progress.rules ++ [rule] := by
  obtain ⟨unopened, unclosed⟩ := unmarked_written left right
  constructor
  · exact (ProofBlock.advance_of_unmarked unopened unclosed s.isOpen).trans outside
  · obtain ⟨rule, leftSide, rightSide, added⟩ := fileRule_clean left right apart path
      { s.progress with context := s.progress.context.underHeadings (written l r) }
    refine ⟨rule, leftSide, rightSide, ?_⟩
    have read_ : (s.next path (written l r)).progress = takeUp path (written l r) s.progress := by
      unfold Reading.next
      rw [outside, unopened]
      exact readLine_of_visible (visible?_written left right)
    rw [read_, takeUp, split?_written left right]
    exact added

theorem reading_written (path : Text) (pairs : List (Text × Text)) {s : Reading} (outside : s.isOpen = false)
    (clean : ∀ p ∈ pairs, Clean p.1 ∧ Clean p.2 ∧ p.1 ≠ repetition) :
    ((pairs.map fun p => written p.1 p.2).foldl (Reading.next path) s).progress.rules.map
        (fun r => (r.left, r.right)) =
      s.progress.rules.map (fun r => (r.left, r.right)) ++
        pairs.map fun p => (',' :: p.1 ++ [','], ',' :: p.2 ++ [',']) := by
  induction pairs generalizing s with
  | nil => exact (List.append_nil _).symm
  | cons p pairs ih =>
    obtain ⟨left, right, apart⟩ := clean p List.mem_cons_self
    obtain ⟨still, rule, leftSide, rightSide, added⟩ := next_written path left right apart outside
    have rest := ih still fun q later => clean q (List.mem_cons_of_mem p later)
    rw [List.map_cons, List.foldl_cons, rest, added]
    simp [leftSide, rightSide]

-- One rule from each line, in order, and its sides are those that the line was written from.
theorem clean_lines_read (pairs : List (Text × Text)) (path : Text)
    (clean : ∀ p ∈ pairs, Clean p.1 ∧ Clean p.2 ∧ p.1 ≠ repetition) :
    (rules (Text.join ['\n'] (pairs.map fun p => written p.1 p.2)) path).map (fun r => (r.left, r.right)) =
      pairs.map fun p => (',' :: p.1 ++ [','], ',' :: p.2 ++ [',']) := by
  cases pairs with
  | nil => rfl
  | cons p pairs =>
    have single : ∀ line ∈ (p :: pairs).map (fun q => written q.1 q.2), '\n' ∉ line := by
      intro line member
      obtain ⟨q, inPairs, rfl⟩ := List.mem_map.1 member
      obtain ⟨left, right, _⟩ := clean q inPairs
      simp [written, left.oneLine, right.oneLine]
    rw [← rulesOf_lines, Text.lines_join single (by simp), rulesOf_eq_read]
    exact reading_written path (p :: pairs) rfl clean

theorem clean_lines_read_with_marks :
    let pairs := [("i \\]\\[, ,, j \\Pu".toList, "\\sim".toList), ("\\sim\\sim".toList, "% \\Or".toList)]
    (∀ p ∈ pairs, Clean p.1 ∧ Clean p.2 ∧ p.1 ≠ repetition) ∧
      (rules (Text.join ['\n'] (pairs.map fun p => written p.1 p.2)) "a.tex".toList).map
          (fun r => (r.left, r.right)) =
        [(",i \\]\\[, ,, j \\Pu,".toList, ",\\sim,".toList), (",\\sim\\sim,".toList, ",% \\Or,".toList)] := by
  intro pairs
  have clean : ∀ p ∈ pairs, Clean p.1 ∧ Clean p.2 ∧ p.1 ≠ repetition := by decide +kernel
  exact ⟨clean, clean_lines_read pairs "a.tex".toList clean⟩

end Source
end OperatorCalculus
