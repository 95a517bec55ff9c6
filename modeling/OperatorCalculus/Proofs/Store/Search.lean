import OperatorCalculus.Proofs.Text.Lowercase
import OperatorCalculus.Proofs.Text.Trim
import OperatorCalculus.Store.Basic

namespace OperatorCalculus

def Rule.texts (r : Rule) : List Text := [r.name, r.description, r.left, r.right]

namespace Filter

-- An empty type or category is no demand.
structure Passes (f : Filter) (r : Rule) : Prop where
  type : ∀ wanted, f.type = some wanted → wanted ≠ [] → r.type = wanted
  category : ∀ wanted, f.category = some wanted → wanted ≠ [] → r.category = wanted

theorem agrees_iff {demand : Option Text} {value : Text} : agrees demand value = true ↔
    ∀ wanted, demand = some wanted → wanted ≠ [] → value = wanted := by
  unfold agrees demands
  rcases demand with _ | _ | ⟨c, rest⟩ <;> simp

theorem mentions_iff {query text : Text} : mentions query text = true ↔ Text.lower query <:+: Text.lower text :=
  Text.contains_iff

theorem admits_iff {f : Filter} {r : Rule} : f.admits r = true ↔
    f.Passes r ∧ (f.query = [] ∨ ∃ t ∈ r.texts, Text.lower f.query <:+: Text.lower t) := by
  have mentioned : ([r.name, r.description, r.left, r.right].any (mentions f.query)) = true ↔
      ∃ t ∈ r.texts, Text.lower f.query <:+: Text.lower t := by
    simp only [List.any_eq_true, mentions_iff, Rule.texts]
  rw [admits, Bool.and_eq_true, Bool.and_eq_true, Bool.or_eq_true, agrees_iff, agrees_iff,
    List.isEmpty_iff, mentioned]
  exact and_congr_left fun _ => ⟨fun both => ⟨both.1, both.2⟩, fun passes => ⟨passes.type, passes.category⟩⟩

end Filter

namespace Store

-- A search keeps, in their order, the rules that pass the filters and mention the query in
-- lower case. It finds every rule that holds the query verbatim exactly when the query is
-- settled, and so whenever the query has no capital sigma.
theorem search_verbatim_iff (query : Text) :
    (∀ (s : Store) (f : Filter), s.search f = s.rules.filter f.admits ∧ ∀ r, f.admits r = true ↔
      f.Passes r ∧ (f.query = [] ∨ ∃ t ∈ r.texts, Text.lower f.query <:+: Text.lower t)) ∧
    ((∀ (s : Store) (f : Filter), f.query = query →
      ∀ r ∈ s.rules, f.Passes r → (∃ t ∈ r.texts, query <:+: t) → r ∈ s.search f) ↔ query.Settled) ∧
    ('Σ' ∉ query → query.Settled) := by
  refine ⟨fun s f => ⟨rfl, fun r => Filter.admits_iff⟩, ⟨fun found => ?_, fun settled => ?_⟩,
    Text.settled_of_notMem⟩
  · rw [← Text.infix_lower_iff]
    intro t holds
    let r : Rule := ⟨[], t, [], [], t, t, t, none, none⟩
    have passes : (⟨query, none, none⟩ : Filter).Passes r := ⟨by simp, by simp⟩
    have member := found (create [r] false) ⟨query, none, none⟩ rfl r List.mem_cons_self passes
      ⟨t, List.mem_cons_self, holds⟩
    rcases (Filter.admits_iff.1 (List.mem_filter.1 member).2).2 with empty | ⟨t', inTexts, mentioned⟩
    · change query = [] at empty
      rw [empty]
      exact List.nil_infix
    · have same : t' = t := by
        simpa [r, Rule.texts] using inTexts
      rwa [same] at mentioned
  · rintro s f rfl r member passes ⟨t, inTexts, holds⟩
    refine List.mem_filter.2 ⟨member, Filter.admits_iff.2 ⟨passes, .inr ⟨t, inTexts, ?_⟩⟩⟩
    exact Text.infix_lower_of_settled settled holds

theorem search_verbatim_iff_of_inner_sigma :
    let r : Rule := ⟨['a'], "ΑΣΑ".toList, Rule.axiomType, "logic".toList, [], [','], [','], none, none⟩
    let f : Filter := ⟨"ΣΑ".toList, some Rule.axiomType, some []⟩
    f.Passes r ∧ (∃ t ∈ r.texts, f.query <:+: t) ∧ r ∈ (create [r] false).search f := by
  intro r f
  have passes : f.Passes r := ⟨by simp [f, r], by simp [f]⟩
  have holds : ∃ t ∈ r.texts, f.query <:+: t := ⟨_, List.mem_cons_self, ['Α'], [], rfl⟩
  have found := (search_verbatim_iff "ΣΑ".toList).2.1.2 (by decide +kernel) (create [r] false) f rfl r
    List.mem_cons_self passes holds
  exact ⟨passes, holds, found⟩

-- The sigma is final in the query and not in the name that holds it.
theorem not_search_verbatim :
    let r : Rule := ⟨['a'], "ΑΣΑ".toList, Rule.axiomType, "logic".toList, [], [','], [','], none, none⟩
    let f : Filter := ⟨"ΑΣ".toList, none, none⟩
    f.Passes r ∧ f.query <:+: r.name ∧ (create [r] false).search f = [] := by
  intro r f
  refine ⟨⟨by simp [f], by simp [f]⟩, ⟨[], ['Α'], rfl⟩, ?_⟩
  decide +kernel

end Store
end OperatorCalculus
