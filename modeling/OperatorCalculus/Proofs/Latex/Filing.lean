import OperatorCalculus.Latex.Source
import OperatorCalculus.Proofs.Rule.RoundTrip

namespace OperatorCalculus

theorem Naming.ruleType_mem (chapterTitle sectionTitle subsectionTitle file : Text) :
    ruleType chapterTitle sectionTitle subsectionTitle file ∈ Rule.types := by
  simp only [ruleType, Rule.types]
  split
  · simp
  split <;> simp

namespace Source

theorem Context.optional_ne_empty (t : Text) : Context.optional t ≠ some [] := by
  rw [Context.optional]
  split
  · simp
  · next filled =>
    intro same
    exact filled (by rw [Option.some.inj same]; rfl)

theorem Context.fileable_file (c : Context) (path : Text) (index : Nat) (left right : Text) :
    (c.file path index left right).Fileable :=
  ⟨Naming.ruleType_mem _ _ _ _, optional_ne_empty _, optional_ne_empty _⟩

theorem fileRule_rules (path : Text) (sides : RuleLine.Sides) (p : Progress) :
    (fileRule path sides p).rules = p.rules ∨ ∃ c left right,
      (fileRule path sides p).rules =
        p.rules ++ [Context.file c path p.rules.length left right] := by
  simp only [fileRule]
  generalize (if emptyLeft sides then p.context.emptyRun + 1 else 0) = run
  split
  · exact .inl rfl
  split
  · exact .inl rfl
  · exact .inr ⟨_, _, _, rfl⟩

theorem readLine_rules (path : Text) (inProof : Bool) (raw : Text) (p : Progress) :
    (readLine path inProof raw p).rules = p.rules ∨ ∃ c left right,
      (readLine path inProof raw p).rules =
        p.rules ++ [Context.file c path p.rules.length left right] := by
  simp only [readLine]
  split
  · exact .inl rfl
  split
  · exact .inl rfl
  split
  · exact .inl rfl
  split
  · exact .inl rfl
  split
  · exact .inl rfl
  · next sides _ => exact fileRule_rules path sides _

theorem readLines_filed {P : Rule → Prop} {path : Text}
    (filed : ∀ c index left right, P (Context.file c path index left right))
    (ls : List (Text × Bool)) :
    ∀ p : Progress, (∀ r ∈ p.rules, P r) → ∀ r ∈ (readLines path ls p).rules, P r := by
  induction ls with
  | nil => exact fun p before => before
  | cons l rest ih =>
    intro p before
    obtain ⟨raw, inProof⟩ := l
    apply ih
    rcases readLine_rules path inProof raw p with same | ⟨c, left, right, one⟩
    · rw [same]
      exact before
    · rw [one]
      intro r member
      rcases List.mem_append.1 member with old | new
      · exact before r old
      · rw [List.mem_singleton.1 new]
        exact filed c _ left right

theorem rules_filed {P : Rule → Prop} {path : Text}
    (filed : ∀ c index left right, P (Context.file c path index left right)) (document : Text) :
    ∀ r ∈ rules document path, P r :=
  readLines_filed filed _ _ (by simp)

theorem rules_fileable (document path : Text) : ∀ r ∈ rules document path, r.Fileable :=
  rules_filed (fun c _ _ _ => c.fileable_file path _ _ _) document

end Source
end OperatorCalculus
