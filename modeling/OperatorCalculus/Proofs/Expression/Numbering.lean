import Mathlib.Data.Set.Function
import OperatorCalculus.Proofs.Expression.Extraction

namespace OperatorCalculus

open Operand

namespace Text

theorem ofNat_injective {n m : Nat} (same : ofNat n = ofNat m) : n = m := by
  have value := congrArg (fun t => Nat.ofDigitChars 10 t 0) same
  simpa [ofNat, Nat.ofDigitChars_ten_toDigits] using value

theorem isNumberWord_ofNat (n : Nat) : isNumberWord (ofNat n) = true := by
  refine isNumberWord_iff.2 ⟨Nat.toDigits_ne_nil, fun c member => ?_⟩
  have digit := Nat.isDigit_of_mem_toDigits (by decide) (by decide) member
  simpa [Char.isDigit, isDigit, Char.le_def] using digit

theorem isBlank_of_isWord {c : Char} (word : isWord c = true) : isBlank c = false := by
  have place : c.toNat = 95 ∨ (48 ≤ c.toNat ∧ c.toNat ≤ 57) ∨ (65 ≤ c.toNat ∧ c.toNat ≤ 90) ∨
      (97 ≤ c.toNat ∧ c.toNat ≤ 122) := by
    simp only [isWord, isLetter, isLower, isUpper, isDigit, Bool.or_eq_true, Bool.and_eq_true,
      decide_eq_true_eq, beq_iff_eq, Char.le_def, UInt32.le_iff_toNat_le] at word
    rcases word with ((⟨low, high⟩ | ⟨low, high⟩) | ⟨low, high⟩) | rfl
    · exact .inr (.inr (.inr ⟨low, high⟩))
    · exact .inr (.inr (.inl ⟨low, high⟩))
    · exact .inr (.inl ⟨low, high⟩)
    · exact .inl rfl
  simp only [isBlank, Bool.or_eq_false_iff, Bool.and_eq_false_iff, decide_eq_false_iff_not,
    beq_eq_false_iff_ne]
  omega

theorem isEmpty_trim (t : Text) : (trim t).isEmpty = t.all isBlank := by
  have rest := List.takeWhile_append_dropWhile (p := isBlank) (l := t)
  have front : (t.takeWhile isBlank).all isBlank = true := List.all_takeWhile
  have whole : t.all isBlank = (t.dropWhile isBlank).all isBlank := by
    rw [← rest, List.all_append, front, rest, Bool.true_and]
  rw [trim, trimRight, trimLeft, List.isEmpty_reverse, isEmpty_dropWhile, List.all_reverse, whole]

end Text

namespace Numbering

variable {names : Numbering} {vs : List Text} {σ : Text → Text} {v x : Text}

theorem enterAll_append (names : Numbering) (vs ws : List Text) :
    enterAll names (vs ++ ws) = enterAll (enterAll names vs) ws :=
  List.foldl_append

theorem mem_enterAll : x ∈ enterAll names vs ↔ x ∈ names ∨ x ∈ vs := by
  induction vs generalizing names with
  | nil => simp [enterAll]
  | cons v rest ih =>
    have step : enterAll names (v :: rest) = enterAll (names.enter v) rest := rfl
    rw [step, ih, mem_enter, List.mem_cons, or_assoc]

theorem enterAll_of_mem (inside : ∀ v ∈ vs, v ∈ names) : names.enterAll vs = names := by
  induction vs with
  | nil => rfl
  | cons v rest ih =>
    have first : names.enterAll (v :: rest) = (names.enter v).enterAll rest := rfl
    rw [first, enter_of_mem (inside v (by simp))]
    exact ih fun w member => inside w (List.mem_cons_of_mem _ member)

theorem prefix_enterAll (names : Numbering) (vs : List Text) : names <+: names.enterAll vs := by
  induction vs generalizing names with
  | nil => exact List.prefix_refl _
  | cons v rest ih =>
    have first : names <+: names.enter v := by
      unfold enter
      split
      · exact List.prefix_refl _
      · exact List.prefix_append _ _
    exact first.trans (ih _)

theorem number_of_first {later : Numbering} (first : names <+: later) (member : v ∈ names) :
    later.number v = names.number v := by
  obtain ⟨more, rfl⟩ := first
  rw [number, number, List.idxOf_append, if_pos member]

theorem enterAll_map (distinct : Set.InjOn σ {v | v ∈ names ∨ v ∈ vs}) :
    enterAll (names.map σ) (vs.map σ) = (enterAll names vs).map σ := by
  induction vs generalizing names with
  | nil => rfl
  | cons v rest ih =>
    have entered : enter (names.map σ) (σ v) = (names.enter v).map σ := by
      by_cases member : v ∈ names
      · rw [enter_of_mem member, enter_of_mem (List.mem_map_of_mem member)]
      · have fresh : σ v ∉ names.map σ := by
          intro image
          obtain ⟨u, inNames, same⟩ := List.mem_map.1 image
          have : u = v := distinct (.inl inNames) (.inr (by simp)) same
          exact member (this ▸ inNames)
        simp [enter, member, fresh]
    have later := @ih (names.enter v) (distinct.mono fun u place => by
      cases place with
      | inl old =>
        rcases mem_enter.1 old with old | rfl
        · exact .inl old
        · exact .inr (by simp)
      | inr new => exact .inr (List.mem_cons_of_mem _ new))
    rw [← entered] at later
    exact later

theorem number_map (distinct : Set.InjOn σ {v | v ∈ names}) (member : v ∈ names) :
    number (names.map σ) (σ v) = number names v := by
  unfold number
  congr 1
  induction names with
  | nil => cases member
  | cons u rest ih =>
    rw [List.map_cons, List.idxOf_cons, List.idxOf_cons]
    by_cases first : u = v
    · simp [first]
    · have apart : σ u ≠ σ v := fun same => first (distinct (by simp) member same)
      have inRest : v ∈ rest := (List.mem_cons.1 member).resolve_left fun same => first same.symm
      have later := ih (distinct.mono fun w inside => List.mem_cons_of_mem _ inside) inRest
      simp [beq_eq_false_iff_ne.2 first, beq_eq_false_iff_ne.2 apart, later]

theorem number_inj (member : v ∈ names) (same : number names v = number names x) : v = x := by
  have index : names.idxOf v = names.idxOf x := Nat.add_right_cancel same
  have inside := List.idxOf_lt_length_of_mem member
  have inside' : names.idxOf x < names.length := by rwa [← index]
  have at_ : names[names.idxOf v] = v := List.getElem_idxOf inside
  have at' : names[names.idxOf x] = x := List.getElem_idxOf inside'
  rw [← at_, ← at']
  simp only [index]

end Numbering

theorem instantiate_names (names : Numbering) (position : Nat) (ts : List Token) :
    (instantiate names position ts).2 = names.enterAll (ts.map Span.value) := by
  induction ts generalizing names position with
  | nil => rfl
  | cons t rest ih => exact ih (names.enter t.value) (position + 1)

namespace Reading

variable {ps qs : Reading} {σ : Text → Text}

def names (ps qs : Reading) : Numbering := Numbering.enterAll [] (values ps ++ values qs)

def numbered (ns : Numbering) (ps : Reading) : Text :=
  text (rename (fun v => Text.ofNat (ns.number v)) ps)

theorem mem_names {v : Text} : v ∈ names ps qs ↔ v ∈ values ps ∨ v ∈ values qs := by
  simp [names, Numbering.mem_enterAll]

theorem names_rename (distinct : Set.InjOn σ {v | v ∈ values ps ∨ v ∈ values qs}) :
    names (rename σ ps) (rename σ qs) = (names ps qs).map σ := by
  have all : Set.InjOn σ {v | v ∈ ([] : Numbering) ∨ v ∈ values ps ++ values qs} :=
    distinct.mono fun v place => by simpa using place
  rw [names, names, values_rename, values_rename, ← List.map_append]
  exact Numbering.enterAll_map all

theorem numbered_rename {ns : Numbering} (distinct : Set.InjOn σ {v | v ∈ ns})
    (inside : ∀ v ∈ values ps, v ∈ ns) : numbered (ns.map σ) (rename σ ps) = numbered ns ps := by
  rw [numbered, numbered, rename_rename]
  congr 1
  apply rename_congr
  intro v member
  simp only [Function.comp_apply, Numbering.number_map distinct (inside v member)]

theorem replaceAll_text (image : Text → Text) (ps : Reading) :
    Expression.replaceAll image (tokens 0 ps) (text ps) = text (rename image ps) := by
  have agrees : ∀ k v, Part.operand k v ∈ ps → image v = if (fun _ => true) k then image v else v :=
    fun _ _ _ => (if_pos rfl).symm
  have all := replaceAll_tokens (fun _ => true) image [] agrees
  rwa [List.filter_eq_self.2 fun _ _ => rfl] at all

end Reading

namespace Reads

open Reading

variable {ps qs : Reading} {σ : Text → Text}

theorem canonicalPair_text (left : Reads false ps) (right : Reads false qs) :
    Expression.canonicalPair (text ps) (text qs) =
      (numbered (names ps qs) ps, numbered (names ps qs) qs) := by
  have shared : (instantiate (instantiate [] 1 (tokens 0 ps)).2 ((tokens 0 ps).length + 1)
      (tokens 0 qs)).2 = names ps qs := by
    rw [instantiate_names, instantiate_names, map_value_tokens, map_value_tokens,
      ← Numbering.enterAll_append]
    rfl
  simp only [Expression.canonicalPair, Expression.normalizePair, NormalizedPair.integers,
    Normalized.ofParts, left.extract_text, right.extract_text, shared, replaceAll_text]
  rfl

theorem canonicalPair_rename (left : Reads false ps) (right : Reads false qs)
    (left' : Reads false (rename σ ps)) (right' : Reads false (rename σ qs))
    (distinct : Set.InjOn σ {v | v ∈ values ps ∨ v ∈ values qs}) :
    Expression.canonicalPair (text (rename σ ps)) (text (rename σ qs)) =
      Expression.canonicalPair (text ps) (text qs) := by
  have inNames : Set.InjOn σ {v | v ∈ names ps qs} := distinct.mono fun v => mem_names.1
  rw [left.canonicalPair_text right, left'.canonicalPair_text right', names_rename distinct,
    numbered_rename inNames fun v member => mem_names.2 (.inl member),
    numbered_rename inNames fun v member => mem_names.2 (.inr member)]

theorem all_numbered {escaped : Bool} (reads : Reads escaped ps) (ns : Numbering) {P : Char → Bool}
    (apart : ∀ c, Text.isWord c = true → P c = false) :
    (numbered ns ps).all P = (text ps).all P := by
  have heads := fun k v => reads.operand_head (k := k) (v := v)
  clear reads
  induction ps with
  | nil => rfl
  | cons p rest ih =>
    have later := ih fun k v member => heads k v (List.mem_cons_of_mem _ member)
    unfold numbered at later ⊢
    cases p with
    | gap t => simp [Part.rename, Part.text, later]
    | operand k v =>
      obtain ⟨c, more, rfl, word⟩ := heads k v (by simp)
      obtain ⟨filled, digits⟩ := isNumberWord_iff.1 (Text.isNumberWord_ofNat (ns.number (c :: more)))
      obtain ⟨d, tail, number⟩ := List.exists_cons_of_ne_nil filled
      have digit : Text.isWord d = true := isWord_of_isDigit (digits d (by simp [number]))
      simp [Part.rename, Part.text, number, apart c word, apart d digit]

end Reads
end OperatorCalculus
