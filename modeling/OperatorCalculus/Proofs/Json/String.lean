import OperatorCalculus.Json.Reader
import OperatorCalculus.Json.Writer
import OperatorCalculus.Proofs.Text.Spelling

-- A written string is read back as the same text, whatever text it is. What decides is
-- that each character is read from its own piece of the written form.
namespace OperatorCalculus
namespace Json

theorem ofSpelling_ofText (t : Text) : ofSpelling (Spelling.ofText t) = .str t := by
  rw [ofSpelling, Spelling.text?_ofText]

theorem writeSpelling_ofText (t : Text) : writeSpelling (Spelling.ofText t) = writeString t := by
  rw [writeSpelling, writeString, Spelling.ofText, List.flatMap_map]
  rfl

variable {opening more : Text} {c x : Char}

theorem readString_plain (opening more : Text) (mark : c ≠ '\x22') (slash : c ≠ '\\')
    (printed : 0x20 ≤ c.toNat) :
    readString opening 0 (c :: more) = consUnit (.char c) (readString opening 0 more) := by
  have above : ¬ c.toNat ≤ 0x1F := by omega
  simp [readString, mark, slash, above]

theorem readString_escape (opening more : Text) (known : plainEscape c = some x) :
    readString opening 0 ('\\' :: c :: more) = consUnit (.char x) (readString opening 0 more) := by
  have read : readEscape opening (c :: more) = .ok (.char x, 1) := by
    unfold readEscape
    split
    · next none => cases none
    · next unicode =>
      cases unicode
      cases known
    · next single =>
      cases single
      rw [known]
  simp [readString, read]

theorem hexNumber_control : ∀ n < 0x20,
    hexNumber '0' '0' (Nat.digitChar (n / 16)) (Nat.digitChar (n % 16)) = some n := by
  decide

theorem readString_control {n : Nat} (opening : Text) (small : n < 0x20) (behind : more ≠ []) :
    readString opening 0
        ('\\' :: 'u' :: '0' :: '0' :: Nat.digitChar (n / 16) :: Nat.digitChar (n % 16) :: more) =
      consUnit (.char (Char.ofNat n)) (readString opening 0 more) := by
  obtain ⟨e, rest, rfl⟩ := List.exists_cons_of_ne_nil behind
  have value := hexNumber_control n small
  have high : isHighHalf n = false := by
    simp only [isHighHalf, Bool.and_eq_false_iff, decide_eq_false_iff_not]
    omega
  have low : isLowHalf n = false := by
    simp only [isLowHalf, Bool.and_eq_false_iff, decide_eq_false_iff_not]
    omega
  simp [readString, readEscape, readUnicodeEscape, value, high, unitOf, low]

theorem escapeChar_cases (c : Char) :
    (∃ e, escapeChar c = ['\\', e] ∧ plainEscape e = some c) ∨
    (c.toNat < 0x20 ∧ escapeChar c =
      ['\\', 'u', '0', '0', Nat.digitChar (c.toNat / 16), Nat.digitChar (c.toNat % 16)]) ∨
    (escapeChar c = [c] ∧ c ≠ '\x22' ∧ c ≠ '\\' ∧ 0x20 ≤ c.toNat) := by
  have named : ∀ n, c.toNat = n → c = Char.ofNat n := by
    intro n same
    rw [← same, Char.ofNat_toNat]
  simp only [escapeChar, beq_iff_eq]
  split
  · next mark => exact .inl ⟨c, rfl, by rw [named _ mark]; rfl⟩
  split
  · next slash => exact .inl ⟨_, rfl, by rw [slash]; rfl⟩
  split
  · next feed => exact .inl ⟨_, rfl, by rw [named _ feed]; rfl⟩
  split
  · next back => exact .inl ⟨_, rfl, by rw [named _ back]; rfl⟩
  split
  · next tab => exact .inl ⟨_, rfl, by rw [named _ tab]; rfl⟩
  split
  · next page => exact .inl ⟨_, rfl, by rw [named _ page]; rfl⟩
  split
  · next bell => exact .inl ⟨_, rfl, by rw [named _ bell]; rfl⟩
  split
  · next small => exact .inr (.inl ⟨small, rfl⟩)
  · next mark slash _ _ _ _ _ large =>
    exact .inr (.inr ⟨rfl, fun same => mark (by rw [same]; rfl), slash, Nat.le_of_not_lt large⟩)

theorem readString_escapeChar (opening : Text) (c : Char) (behind : more ≠ []) :
    readString opening 0 (escapeChar c ++ more) =
      consUnit (.char c) (readString opening 0 more) := by
  rcases escapeChar_cases c with ⟨e, same, known⟩ | ⟨small, same⟩ | ⟨same, mark, slash, printed⟩
  · rw [same]
    exact readString_escape opening more known
  -- The escape of a control is read only when something stands behind it.
  · have read := readString_control opening small behind
    rw [Char.ofNat_toNat] at read
    rw [same]
    exact read
  · rw [same]
    exact readString_plain opening more mark slash printed

theorem readString_text (opening t rest : Text) :
    readString opening 0 (t.flatMap escapeChar ++ '\x22' :: rest) = .ok (Spelling.ofText t, rest) := by
  induction t with
  | nil => simp [readString, Spelling.ofText]
  | cons c t ih =>
    rw [List.flatMap_cons, List.append_assoc, readString_escapeChar opening c (by simp), ih]
    rfl

theorem escapeChar_single_line (c : Char) : '\r' ∉ escapeChar c := by
  have digit : ∀ n < 16, Nat.digitChar n ≠ '\r' := by decide
  rcases escapeChar_cases c with ⟨e, same, known⟩ | ⟨small, same⟩ | ⟨same, _, _, printed⟩
  · have other : e ≠ '\r' := by
      rintro rfl
      cases known
    simp [same, other.symm]
  · have first := digit (c.toNat / 16) (by omega)
    have second := digit (c.toNat % 16) (by omega)
    simp [same, first.symm, second.symm]
  · have other : c ≠ '\r' := by
      rintro rfl
      exact absurd printed (by decide)
    simp [same, other.symm]

end Json
end OperatorCalculus
