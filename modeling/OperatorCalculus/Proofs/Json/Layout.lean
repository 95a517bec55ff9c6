import OperatorCalculus.Proofs.Json.String

namespace OperatorCalculus
namespace Json

-- Values that are built of texts alone, with distinct names in each object, and that open
-- no more collections than the reader allows.
mutual
def Textual (limit : Nat) : Nat → Json → Prop
  | _, .str _ => True
  | depth, .arr items => depth < limit ∧ ItemsTextual limit (depth + 1) items
  | depth, .obj members =>
    depth < limit ∧ (members.map Prod.fst).Nodup ∧ MembersTextual limit (depth + 1) members
  | _, _ => False

def ItemsTextual (limit : Nat) : Nat → List Json → Prop
  | _, [] => True
  | depth, v :: more => Textual limit depth v ∧ ItemsTextual limit depth more

def MembersTextual (limit : Nat) : Nat → List (Spelling × Json) → Prop
  | _, [] => True
  | depth, (k, v) :: more =>
    (∃ t, k = Spelling.ofText t) ∧ Textual limit depth v ∧ MembersTextual limit depth more
end

variable {limit : Nat}

theorem itemsTextual_iff {depth : Nat} {items : List Json} :
    ItemsTextual limit depth items ↔ ∀ v ∈ items, Textual limit depth v := by
  induction items with
  | nil => simp [ItemsTextual]
  | cons v more ih => rw [ItemsTextual, ih, List.forall_mem_cons]

theorem membersTextual_iff {depth : Nat} {members : List (Spelling × Json)} :
    MembersTextual limit depth members ↔
      ∀ m ∈ members, (∃ t, m.1 = Spelling.ofText t) ∧ Textual limit depth m.2 := by
  induction members with
  | nil => simp [MembersTextual]
  | cons m more ih =>
    obtain ⟨k, v⟩ := m
    rw [MembersTextual, ih, List.forall_mem_cons, and_assoc]

def laidItems (depth : Nat) : List Json → Text
  | [] => []
  | v :: more => layout depth v ++ layoutItems depth more

def laidMembers (depth : Nat) : List (Spelling × Json) → Text
  | [] => []
  | (k, v) :: more => writeSpelling k ++ ':' :: ' ' :: layout depth v ++ layoutMembers depth more

theorem layout_arr (depth : Nat) (v : Json) (more : List Json) :
    layout depth (.arr (v :: more)) =
      '[' :: newline (depth + 1) ++ laidItems (depth + 1) (v :: more) ++ newline depth ++ [']'] := by
  simp [layout, laidItems]

theorem layout_obj (depth : Nat) (m : Spelling × Json) (more : List (Spelling × Json)) :
    layout depth (.obj (m :: more)) = '\x7b' :: newline (depth + 1) ++
      laidMembers (depth + 1) (m :: more) ++ newline depth ++ ['\x7d'] := by
  obtain ⟨k, v⟩ := m
  simp [layout, laidMembers]

theorem layoutItems_cons (depth : Nat) (v : Json) (more : List Json) :
    layoutItems depth (v :: more) = ',' :: (newline depth ++ laidItems depth (v :: more)) := by
  simp [layoutItems, laidItems]

theorem layoutMembers_cons (depth : Nat) (m : Spelling × Json) (more : List (Spelling × Json)) :
    layoutMembers depth (m :: more) = ',' :: (newline depth ++ laidMembers depth (m :: more)) := by
  obtain ⟨k, v⟩ := m
  simp [layoutMembers, laidMembers]

section Space

variable {space t : Text} {c : Char}

theorem skipSpace_append (blank : ∀ c ∈ space, isSpace c = true) (stop : isSpace c = false) :
    skipSpace (space ++ c :: t) = c :: t := by
  rw [skipSpace, List.dropWhile_append_of_pos blank, List.dropWhile_cons_of_neg (by simp [stop])]

theorem skipSpace_cons (stop : isSpace c = false) : skipSpace (c :: t) = c :: t := by
  rw [skipSpace, List.dropWhile_cons_of_neg (by simp [stop])]

theorem newline_blank (depth : Nat) : ∀ c ∈ newline depth, isSpace c = true := by
  intro c member
  simp only [newline, List.mem_cons, List.mem_replicate] at member
  rcases member with rfl | ⟨_, rfl⟩ <;> rfl

end Space

def openings : Text := ['\x22', '[', '\x7b']

theorem opening_stops : ∀ c ∈ openings, isSpace c = false ∧ c ≠ ']' ∧ c ≠ byteOrderMark := by
  simp [openings, isSpace, byteOrderMark]

theorem layout_head {depth : Nat} {v : Json} (textual : Textual limit depth v) :
    ∃ c t, layout depth v = c :: t ∧ c ∈ openings := by
  cases v with
  | str s => exact ⟨'\x22', _, by rw [layout]; rfl, by decide⟩
  | arr items =>
    cases items with
    | nil => exact ⟨'[', _, by rw [layout], by decide⟩
    | cons v more => exact ⟨'[', _, layout_arr depth v more, by decide⟩
  | obj members =>
    cases members with
    | nil => exact ⟨'\x7b', _, by rw [layout], by decide⟩
    | cons m more => exact ⟨'\x7b', _, layout_obj depth m more, by decide⟩
  | _ => simp [Textual] at textual

theorem skipSpace_layout {depth : Nat} {v : Json} (textual : Textual limit depth v) (after : Text) :
    skipSpace (layout depth v ++ after) = layout depth v ++ after := by
  obtain ⟨c, t, head, opening⟩ := layout_head textual
  rw [head]
  exact skipSpace_cons (opening_stops c opening).1

theorem skipSpace_blank {c : Char} (blank : isSpace c = true) (t : Text) :
    skipSpace (c :: t) = skipSpace t := List.dropWhile_cons_of_pos blank

theorem laidItems_head {depth : Nat} {v : Json} (textual : Textual limit depth v) (more : List Json) :
    ∃ c t, laidItems depth (v :: more) = c :: t ∧ isSpace c = false ∧ c ≠ ']' := by
  obtain ⟨c, t, same, opening⟩ := layout_head textual
  obtain ⟨stop, filled, _⟩ := opening_stops c opening
  exact ⟨c, t ++ layoutItems depth more, by rw [laidItems, same]; rfl, stop, filled⟩

theorem laidMembers_head (depth : Nat) (m : Spelling × Json) (more : List (Spelling × Json)) :
    ∃ t, laidMembers depth (m :: more) = '\x22' :: t := by
  obtain ⟨k, v⟩ := m
  exact ⟨_, rfl⟩

section Steps

variable {fuel depth : Nat} {t rest more final : Text} {v : Json} {items : List Json}
  {members : List (Spelling × Json)} {c : Char}

theorem readValue_str (s rest : Text) :
    readValue limit (fuel + 1) depth (writeString s ++ rest) = .ok (.str s, rest) := by
  have read := readString_text (writeString s ++ rest) s rest
  simp only [writeString, List.cons_append, List.append_assoc, List.nil_append] at read ⊢
  simp only [readValue, read, ofSpelling_ofText]

theorem readValue_arr (room : depth < limit) (start : skipSpace rest = c :: t)
    (filled : c ≠ ']') (read : readItems limit fuel (depth + 1) (c :: t) = .ok (items, more)) :
    readValue limit (fuel + 1) depth ('[' :: rest) = .ok (.arr items, more) := by
  simp only [readValue, start, if_neg (Nat.not_le.2 room)]
  split
  · next closed =>
    cases closed
    exact absurd rfl filled
  · rw [read]

theorem readValue_obj (room : depth < limit) (start : skipSpace rest = c :: t)
    (filled : c ≠ '\x7d') (read : readMembers limit fuel (depth + 1) (c :: t) = .ok (members, more)) :
    readValue limit (fuel + 1) depth ('\x7b' :: rest) = .ok (.obj (ofMembers members), more) := by
  simp only [readValue, start, if_neg (Nat.not_le.2 room)]
  split
  · next closed =>
    cases closed
    exact absurd rfl filled
  · rw [read]

theorem readItems_last (read : readValue limit fuel depth t = .ok (v, rest))
    (closing : skipSpace rest = ']' :: more) :
    readItems limit (fuel + 1) depth t = .ok ([v], more) := by
  simp only [readItems, read, closing]

theorem readItems_more (read : readValue limit fuel depth t = .ok (v, rest))
    (comma : skipSpace rest = ',' :: more)
    (later : readItems limit fuel depth (skipSpace more) = .ok (items, final)) :
    readItems limit (fuel + 1) depth t = .ok (v :: items, final) := by
  simp only [readItems, read, comma, later]

theorem readMembers_last (k : Text) (read : readValue limit fuel depth (skipSpace t) = .ok (v, rest))
    (closing : skipSpace rest = '\x7d' :: more) :
    readMembers limit (fuel + 1) depth (writeSpelling (Spelling.ofText k) ++ ':' :: t) =
      .ok ([(Spelling.ofText k, v)], more) := by
  rw [writeSpelling_ofText]
  have name := readString_text (writeString k ++ ':' :: t) k (':' :: t)
  have colon : skipSpace (':' :: t) = ':' :: t := skipSpace_cons rfl
  simp only [writeString, List.cons_append, List.append_assoc, List.nil_append] at name ⊢
  simp only [readMembers, name, colon, read, closing]

theorem readMembers_more (k : Text) (read : readValue limit fuel depth (skipSpace t) = .ok (v, rest))
    (comma : skipSpace rest = ',' :: more)
    (later : readMembers limit fuel depth (skipSpace more) = .ok (members, final)) :
    readMembers limit (fuel + 1) depth (writeSpelling (Spelling.ofText k) ++ ':' :: t) =
      .ok ((Spelling.ofText k, v) :: members, final) := by
  rw [writeSpelling_ofText]
  have name := readString_text (writeString k ++ ':' :: t) k (':' :: t)
  have colon : skipSpace (':' :: t) = ':' :: t := skipSpace_cons rfl
  simp only [writeString, List.cons_append, List.append_assoc, List.nil_append] at name ⊢
  simp only [readMembers, name, colon, read, comma, later]

end Steps

theorem ofMembers_of_nodup {members : List (Spelling × Json)} (distinct : (members.map Prod.fst).Nodup) :
    ofMembers members = members := by
  have onto : ∀ (later known : List (Spelling × Json)), ((known ++ later).map Prod.fst).Nodup →
      later.foldl (fun known m => setMember m.1 m.2 known) known = known ++ later := by
    intro later
    induction later with
    | nil => simp
    | cons m rest ih =>
      intro known distinct
      have fresh : ∀ x ∈ known, x.1 ≠ m.1 := by
        rw [List.map_append, List.nodup_append] at distinct
        intro x member
        exact distinct.2.2 x.1 (List.mem_map_of_mem member) m.1 (by simp)
      rw [List.foldl_cons, setMember_of_mem_fresh _ _ _ fresh, ih]
      · simp
      · simpa using distinct
  exact onto members [] distinct

-- Twice the length of the text that is read, and one call more for the collection around it,
-- are calls enough.
mutual
theorem readValue_layout : ∀ (v : Json) (depth fuel : Nat) (rest : Text), Textual limit depth v →
    2 * (layout depth v).length ≤ fuel →
    readValue limit fuel depth (layout depth v ++ rest) = .ok (v, rest)
  | .str s, depth, fuel, rest, _, enough => by
    have long : 2 ≤ (layout depth (.str s)).length := by simp [layout, writeString]
    obtain ⟨n, rfl⟩ : ∃ n, fuel = n + 1 := ⟨fuel - 1, by omega⟩
    rw [layout]
    exact readValue_str s rest
  | .arr [], depth, fuel, rest, textual, enough => by
    simp only [layout, List.length_cons, List.length_nil] at enough
    obtain ⟨n, rfl⟩ : ∃ n, fuel = n + 1 := ⟨fuel - 1, by omega⟩
    simp [layout, readValue, skipSpace, isSpace, Nat.not_le.2 textual.1]
  | .arr (v :: more), depth, fuel, rest, textual, enough => by
    obtain ⟨room, first, others⟩ := textual
    obtain ⟨c, t, head, stop, filled⟩ := laidItems_head first more
    rw [layout_arr] at enough ⊢
    simp only [List.length_cons, List.length_append, List.length_nil] at enough
    obtain ⟨n, rfl⟩ : ∃ n, fuel = n + 1 := ⟨fuel - 1, by omega⟩
    have read := readItems_laid (v :: more) (depth + 1) n (newline depth) rest (by simp)
      ⟨first, others⟩ (newline_blank depth) (by omega)
    rw [head] at read ⊢
    simp only [List.cons_append, List.append_assoc, List.nil_append] at read ⊢
    exact readValue_arr room (skipSpace_append (newline_blank _) stop) filled read
  | .obj [], depth, fuel, rest, textual, enough => by
    simp only [layout, List.length_cons, List.length_nil] at enough
    obtain ⟨n, rfl⟩ : ∃ n, fuel = n + 1 := ⟨fuel - 1, by omega⟩
    simp [layout, readValue, skipSpace, isSpace, Nat.not_le.2 textual.1]
  | .obj (m :: more), depth, fuel, rest, textual, enough => by
    obtain ⟨room, distinct, all⟩ := textual
    obtain ⟨t, head⟩ := laidMembers_head (depth + 1) m more
    rw [layout_obj] at enough ⊢
    simp only [List.length_cons, List.length_append, List.length_nil] at enough
    obtain ⟨n, rfl⟩ : ∃ n, fuel = n + 1 := ⟨fuel - 1, by omega⟩
    have read := readMembers_laid (m :: more) (depth + 1) n (newline depth) rest (by simp)
      all (newline_blank depth) (by omega)
    rw [head] at read ⊢
    simp only [List.cons_append, List.append_assoc, List.nil_append] at read ⊢
    rw [readValue_obj room (skipSpace_append (newline_blank _) rfl) (by decide) read,
      ofMembers_of_nodup distinct]
  | .null, _, _, _, textual, _ => by simp [Textual] at textual
  | .bool _, _, _, _, textual, _ => by simp [Textual] at textual
  | .int _, _, _, _, textual, _ => by simp [Textual] at textual
  | .real _, _, _, _, textual, _ => by simp [Textual] at textual
  | .torn _, _, _, _, textual, _ => by simp [Textual] at textual

theorem readItems_laid : ∀ (items : List Json) (depth fuel : Nat) (space rest : Text), items ≠ [] →
    ItemsTextual limit depth items → (∀ c ∈ space, isSpace c = true) →
    2 * (laidItems depth items).length + 1 ≤ fuel →
    readItems limit fuel depth (laidItems depth items ++ (space ++ ']' :: rest)) = .ok (items, rest)
  | [], _, _, _, _, filled, _, _, _ => absurd rfl filled
  | [v], depth, fuel, space, rest, _, textual, blank, enough => by
    obtain ⟨n, rfl⟩ : ∃ n, fuel = n + 1 := ⟨fuel - 1, by omega⟩
    simp only [laidItems, layoutItems, List.append_nil] at enough ⊢
    have read := readValue_layout v depth n (space ++ ']' :: rest) textual.1 (by omega)
    exact readItems_last read (skipSpace_append blank rfl)
  | v :: w :: more, depth, fuel, space, rest, _, textual, blank, enough => by
    obtain ⟨n, rfl⟩ : ∃ n, fuel = n + 1 := ⟨fuel - 1, by omega⟩
    obtain ⟨first, others⟩ := textual
    obtain ⟨c, t, head, stop, _⟩ := laidItems_head others.1 more
    rw [laidItems, layoutItems_cons] at enough ⊢
    simp only [List.length_append, List.length_cons] at enough
    have later := readItems_laid (w :: more) depth n space rest (by simp) others blank (by omega)
    have start : skipSpace (newline depth ++ (laidItems depth (w :: more) ++ (space ++ ']' :: rest))) =
        laidItems depth (w :: more) ++ (space ++ ']' :: rest) := by
      rw [head]
      exact skipSpace_append (newline_blank depth) stop
    rw [List.append_assoc, List.cons_append, List.append_assoc]
    exact readItems_more (readValue_layout v depth n _ first (by omega)) (skipSpace_cons rfl)
      (by rw [start, later])

theorem readMembers_laid : ∀ (members : List (Spelling × Json)) (depth fuel : Nat) (space rest : Text),
    members ≠ [] → MembersTextual limit depth members → (∀ c ∈ space, isSpace c = true) →
    2 * (laidMembers depth members).length + 1 ≤ fuel →
    readMembers limit fuel depth (laidMembers depth members ++ (space ++ '\x7d' :: rest)) =
      .ok (members, rest)
  | [], _, _, _, _, filled, _, _, _ => absurd rfl filled
  | [(k, v)], depth, fuel, space, rest, _, textual, blank, enough => by
    obtain ⟨n, rfl⟩ : ∃ n, fuel = n + 1 := ⟨fuel - 1, by omega⟩
    obtain ⟨⟨name, rfl⟩, own, _⟩ := textual
    simp only [laidMembers, layoutMembers, List.append_nil, List.length_append,
      List.length_cons] at enough ⊢
    have read := readValue_layout v depth n (space ++ '\x7d' :: rest) own (by omega)
    rw [List.append_assoc, List.cons_append, List.cons_append]
    refine readMembers_last name ?_ (skipSpace_append blank rfl)
    rw [skipSpace_blank rfl, skipSpace_layout own]
    exact read
  | (k, v) :: w :: more, depth, fuel, space, rest, _, textual, blank, enough => by
    obtain ⟨n, rfl⟩ : ∃ n, fuel = n + 1 := ⟨fuel - 1, by omega⟩
    obtain ⟨⟨name, rfl⟩, first, others⟩ := textual
    obtain ⟨t, head⟩ := laidMembers_head depth w more
    rw [laidMembers, layoutMembers_cons] at enough ⊢
    simp only [List.length_append, List.length_cons] at enough
    have later := readMembers_laid (w :: more) depth n space rest (by simp) others blank (by omega)
    have start : skipSpace (newline depth ++
        (laidMembers depth (w :: more) ++ (space ++ '\x7d' :: rest))) =
        laidMembers depth (w :: more) ++ (space ++ '\x7d' :: rest) := by
      rw [head]
      exact skipSpace_append (newline_blank depth) rfl
    have read := readValue_layout v depth n
      (',' :: (newline depth ++ (laidMembers depth (w :: more) ++ (space ++ '\x7d' :: rest)))) first
      (by omega)
    rw [← skipSpace_layout first, ← skipSpace_blank (c := ' ') rfl] at read
    simp only [List.append_assoc, List.cons_append]
    exact readMembers_more name read (skipSpace_cons rfl) (by rw [start, later])
end

theorem read_layout {v : Json} (textual : Textual limit 0 v) : read limit (layout 0 v ++ ['\n']) = .ok v := by
  have unmarked : (layout 0 v ++ ['\n']).head? ≠ some byteOrderMark := by
    obtain ⟨c, t, head, opening⟩ := layout_head textual
    simp [head, (opening_stops c opening).2.2]
  have value := readValue_layout v 0 (2 * (layout 0 v ++ ['\n']).length + 2) ['\n'] textual
    (by rw [List.length_append]; omega)
  rw [read, if_neg (by simpa using unmarked), skipSpace_layout textual, value]
  rfl

theorem writeString_single_line (t : Text) : '\r' ∉ writeString t := by
  simp only [writeString, List.cons_append, List.mem_cons, List.mem_append, List.mem_flatMap]
  rintro (mark | ⟨c, _, member⟩ | mark)
  · simp at mark
  · exact escapeChar_single_line c member
  · simp at mark

theorem newline_single_line (depth : Nat) : '\r' ∉ newline depth := by
  simp [newline]

mutual
theorem layout_single_line : ∀ (v : Json) (depth : Nat), Textual limit depth v → '\r' ∉ layout depth v
  | .str s, depth, _ => by
    rw [layout]
    exact writeString_single_line s
  | .arr [], depth, _ => by simp [layout]
  | .arr (v :: more), depth, ⟨_, textual⟩ => by
    rw [layout_arr]
    have inner := laidItems_single_line (v :: more) (depth + 1) textual
    simp [inner, newline_single_line]
  | .obj [], depth, _ => by simp [layout]
  | .obj (m :: more), depth, ⟨_, _, textual⟩ => by
    rw [layout_obj]
    have inner := laidMembers_single_line (m :: more) (depth + 1) textual
    simp [inner, newline_single_line]
  | .null, _, textual => by simp [Textual] at textual
  | .bool _, _, textual => by simp [Textual] at textual
  | .int _, _, textual => by simp [Textual] at textual
  | .real _, _, textual => by simp [Textual] at textual
  | .torn _, _, textual => by simp [Textual] at textual

theorem laidItems_single_line : ∀ (items : List Json) (depth : Nat), ItemsTextual limit depth items →
    '\r' ∉ laidItems depth items
  | [], _, _ => by simp [laidItems]
  | [v], depth, ⟨textual, _⟩ => by
    have first := layout_single_line v depth textual
    simpa [laidItems, layoutItems] using first
  | v :: w :: more, depth, ⟨textual, others⟩ => by
    have first := layout_single_line v depth textual
    have later := laidItems_single_line (w :: more) depth others
    rw [laidItems, layoutItems_cons]
    simp [first, later, newline_single_line]

theorem laidMembers_single_line : ∀ (members : List (Spelling × Json)) (depth : Nat),
    MembersTextual limit depth members → '\r' ∉ laidMembers depth members
  | [], _, _ => by simp [laidMembers]
  | [(k, v)], depth, ⟨⟨name, same⟩, textual, _⟩ => by
    have first := layout_single_line v depth textual
    rw [same]
    simp [laidMembers, layoutMembers, writeSpelling_ofText, writeString_single_line, first]
  | (k, v) :: m :: more, depth, ⟨⟨name, same⟩, textual, others⟩ => by
    have first := layout_single_line v depth textual
    have later := laidMembers_single_line (m :: more) depth others
    rw [laidMembers, layoutMembers_cons, same, writeSpelling_ofText]
    simp [writeString_single_line, first, later, newline_single_line]
end

end Json
end OperatorCalculus
