import Mathlib.Data.List.Induction
import Mathlib.Data.List.Perm.Basic
import OperatorCalculus.Rule.Table

namespace OperatorCalculus

namespace Table

variable {κ α β : Type} [BEq κ]

-- The keys are the values without repetition, in the order in which they first come. Values
-- that are equal without being the same are kept under the first of them.
structure FirstSeen (keys values : List κ) : Prop where
  first : ∀ k ∈ keys, values[values.idxOf k]? = some k
  each : ∀ v ∈ values, ∃ k ∈ keys, (v == k) = true
  ordered : keys.Pairwise fun j k => values.idxOf j < values.idxOf k

def total (add : α → Option β → β) (start : Option β) (entries : List α) : Option β :=
  entries.foldl (fun value a => some (add a value)) start

def gather (key : α → κ) (add : α → Option β → β) (start : List (κ × β)) (entries : List α) :
    List (κ × β) :=
  entries.foldl (fun table a => update (key a) (add a) table) start

structure Gathered (key : α → κ) (add : α → Option β → β) (entries : List α)
    (table : List (κ × β)) : Prop where
  seen : FirstSeen (keys table) (entries.map key)
  totals : ∀ e ∈ table, total add none (entries.filter fun a => key a == e.1) = some e.2

variable {keys values : List κ} {k v : κ} {key : α → κ} {add : α → Option β → β}
  {entries : List α} {table start : List (κ × β)} {a : α}

theorem update_cases (k : κ) (change : Option β → β) (table : List (κ × β)) :
    (∀ e ∈ table, (e.1 == k) = false) ∧ update k change table = table ++ [(k, change none)] ∨
    ∃ front j value back, table = front ++ (j, value) :: back ∧ (j == k) = true ∧
      update k change table = front ++ (j, change (some value)) :: back := by
  induction table with
  | nil => exact .inl ⟨nofun, rfl⟩
  | cons e rest ih =>
    obtain ⟨j, value⟩ := e
    cases same : j == k with
    | true =>
      refine .inr ⟨[], j, value, rest, rfl, same, ?_⟩
      simp [update, same]
    | false =>
      rcases ih with ⟨absent, added⟩ | ⟨front, i, w, back, rfl, found, changed⟩
      · left
        refine ⟨?_, by simp [update, same, added]⟩
        intro e member
        rcases List.mem_cons.1 member with rfl | later
        · exact same
        · exact absent e later
      · exact .inr ⟨(j, value) :: front, i, w, back, rfl, found, by simp [update, same, changed]⟩

theorem total_concat (add : α → Option β → β) (start : Option β) (entries : List α) (a : α) :
    total add start (entries ++ [a]) = some (add a (total add start entries)) := by
  simp [total]

theorem total_filter_concat (key : α → κ) (add : α → Option β → β) (start : Option β)
    (entries : List α) (a : α) (k : κ) : total add start ((entries ++ [a]).filter fun b => key b == k) =
      if key a == k then some (add a (total add start (entries.filter fun b => key b == k)))
      else total add start (entries.filter fun b => key b == k) := by
  rw [List.filter_append]
  cases same : key a == k with
  | true => simp [same, total_concat]
  | false => simp [same]

theorem total_fold (step : β → α → β) (init : β) (entries : List α) (start : Option β) :
    (total (fun a value => step (value.getD init) a) start entries).getD init =
      entries.foldl step (start.getD init) := by
  induction entries generalizing start with
  | nil => rfl
  | cons a rest ih => exact ih _

theorem gather_concat (key : α → κ) (add : α → Option β → β) (start : List (κ × β))
    (entries : List α) (a : α) : gather key add start (entries ++ [a]) =
      update (key a) (add a) (gather key add start entries) := by
  simp [gather]

theorem get?_gather [LawfulBEq κ] (k : κ) (key : α → κ) (add : α → Option β → β)
    (start : List (κ × β)) (entries : List α) : get? k (gather key add start entries) =
      total add (get? k start) (entries.filter fun a => key a == k) := by
  induction entries using List.reverseRecOn with
  | nil => rfl
  | append_singleton entries a ih =>
    rw [gather_concat, total_filter_concat, ← ih]
    by_cases same : key a = k
    · rw [same, get?_update_self, if_pos BEq.rfl]
    · rw [get?_update_ne same, if_neg (mt beq_iff_eq.1 same)]

theorem keys_update_of_mem [LawfulBEq κ] {change : Option β → β} (old : k ∈ Table.keys table) :
    Table.keys (update k change table) = Table.keys table := by
  rcases update_cases k change table with ⟨absent, _⟩ | ⟨front, j, value, back, rfl, _, changed⟩
  · obtain ⟨e, member, rfl⟩ := List.mem_map.1 old
    exact absurd (absent e member) (by simp)
  · rw [changed]
    simp [Table.keys]

theorem keys_gather_of_mem [LawfulBEq κ] (key : α → κ) (add : α → Option β → β)
    (old : ∀ a ∈ entries, key a ∈ Table.keys start) :
    Table.keys (gather key add start entries) = Table.keys start := by
  induction entries using List.reverseRecOn with
  | nil => rfl
  | append_singleton entries a ih =>
    have before := ih fun b member => old b (List.mem_append_left _ member)
    have own : key a ∈ Table.keys start := old a (by simp)
    rw [gather_concat, keys_update_of_mem, before]
    rwa [before]

theorem FirstSeen.idxOf_lt (seen : FirstSeen keys values) (member : k ∈ keys) :
    values.idxOf k < values.length :=
  (List.getElem?_eq_some_iff.1 (seen.first k member)).1

theorem FirstSeen.idxOf_append (seen : FirstSeen keys values) (member : k ∈ keys) (later : List κ) :
    (values ++ later).idxOf k = values.idxOf k := by
  have place := seen.idxOf_lt member
  unfold List.idxOf at place ⊢
  rw [List.findIdx_append, if_pos place]

theorem FirstSeen.first_append (seen : FirstSeen keys values) (later : List κ) (k : κ) (member : k ∈ keys) :
    (values ++ later)[(values ++ later).idxOf k]? = some k := by
  rw [seen.idxOf_append member, List.getElem?_append_left (seen.idxOf_lt member)]
  exact seen.first k member

theorem FirstSeen.ordered_append (seen : FirstSeen keys values) (later : List κ) :
    keys.Pairwise fun j k => (values ++ later).idxOf j < (values ++ later).idxOf k :=
  seen.ordered.imp_of_mem fun {j k} inJ inK before => by
    rwa [seen.idxOf_append inJ, seen.idxOf_append inK]

theorem FirstSeen.again (seen : FirstSeen keys values) (old : ∃ k ∈ keys, (v == k) = true) :
    FirstSeen keys (values ++ [v]) := by
  refine ⟨seen.first_append [v], ?_, seen.ordered_append [v]⟩
  intro w member
  rcases List.mem_append.1 member with before | last
  · exact seen.each w before
  · rwa [List.mem_singleton.1 last]

theorem Gathered.totals_of_other (gathered : Gathered key add entries table) {e : κ × β}
    (member : e ∈ table) (other : (key a == e.1) = false) :
    total add none ((entries ++ [a]).filter fun b => key b == e.1) = some e.2 := by
  rw [total_filter_concat, other]
  exact gathered.totals e member

variable [PartialEquivBEq κ]

theorem idxOf_congr (same : (k == v) = true) (values : List κ) : values.idxOf k = values.idxOf v := by
  have alike : (fun x => x == k) = fun x => x == v := funext fun x => BEq.congr_right same
  rw [List.idxOf, List.idxOf, alike]

theorem FirstSeen.distinct (seen : FirstSeen keys values) :
    keys.Pairwise fun j k => (j == k) = false := by
  refine seen.ordered.imp fun {j k} before => Bool.eq_false_iff.2 fun same => ?_
  rw [idxOf_congr same] at before
  exact Nat.lt_irrefl _ before

theorem FirstSeen.unseen (seen : FirstSeen keys values) (absent : ∀ k ∈ keys, (k == v) = false) :
    ∀ w ∈ values, (w == v) = false := by
  intro w member
  obtain ⟨k, inKeys, same⟩ := seen.each w member
  rw [BEq.congr_left same]
  exact absent k inKeys

theorem FirstSeen.new (seen : FirstSeen keys values) (own : (v == v) = true)
    (absent : ∀ k ∈ keys, (k == v) = false) : FirstSeen (keys ++ [v]) (values ++ [v]) := by
  have place : (values ++ [v]).idxOf v = values.length := by
    have none := List.findIdx_eq_length_of_false (seen.unseen absent)
    unfold List.idxOf
    rw [List.findIdx_append, none, if_neg (Nat.lt_irrefl _), List.findIdx_cons, own]
    exact Nat.zero_add _
  refine ⟨?_, ?_, ?_⟩
  · intro k member
    rcases List.mem_append.1 member with before | last
    · exact seen.first_append [v] k before
    · rw [List.mem_singleton.1 last, place]
      exact List.getElem?_concat_length
  · intro w member
    rcases List.mem_append.1 member with before | last
    · obtain ⟨k, inKeys, same⟩ := seen.each w before
      exact ⟨k, List.mem_append_left _ inKeys, same⟩
    · rw [List.mem_singleton.1 last]
      exact ⟨v, List.mem_append_right _ (List.mem_singleton_self v), own⟩
  · refine List.pairwise_append.2 ⟨seen.ordered_append [v], List.pairwise_singleton _ v, ?_⟩
    intro k member w last
    rw [List.mem_singleton.1 last, place, seen.idxOf_append member]
    exact seen.idxOf_lt member

theorem Gathered.new (gathered : Gathered key add entries table) (own : (key a == key a) = true)
    (absent : ∀ e ∈ table, (e.1 == key a) = false) :
    Gathered key add (entries ++ [a]) (table ++ [(key a, add a none)]) := by
  have unlisted : ∀ k ∈ Table.keys table, (k == key a) = false := List.forall_mem_map.2 absent
  refine ⟨?_, ?_⟩
  · rw [List.map_append, Table.keys, List.map_append]
    exact gathered.seen.new own unlisted
  · intro e member
    rcases List.mem_append.1 member with before | last
    · exact gathered.totals_of_other before (BEq.symm_false (absent e before))
    · have none : entries.filter (fun b => key b == key a) = [] := by
        rw [List.filter_eq_nil_iff]
        intro b inEntries
        exact Bool.eq_false_iff.1 (gathered.seen.unseen unlisted _ (List.mem_map_of_mem inEntries))
      rw [List.mem_singleton.1 last, total_filter_concat, own, none]
      rfl

theorem others_apart {front back : List (κ × β)} {value : β}
    (distinct : (Table.keys (front ++ (k, value) :: back)).Pairwise fun i j => (i == j) = false) :
    ∀ e, e ∈ front ∨ e ∈ back → (k == e.1) = false := by
  rw [Table.keys, List.map_append, List.map_cons, List.pairwise_append, List.pairwise_cons] at distinct
  intro e beside
  cases beside with
  | inl before =>
    exact BEq.symm_false (distinct.2.2 e.1 (List.mem_map_of_mem before) k List.mem_cons_self)
  | inr behind => exact distinct.2.1.1 e.1 (List.mem_map_of_mem behind)

theorem Gathered.again {front back : List (κ × β)} {value : β}
    (gathered : Gathered key add entries (front ++ (k, value) :: back)) (same : (k == key a) = true) :
    Gathered key add (entries ++ [a]) (front ++ (k, add a (some value)) :: back) := by
  have listed : (k, value) ∈ front ++ (k, value) :: back := by simp
  refine ⟨?_, ?_⟩
  · have sameKeys : Table.keys (front ++ (k, add a (some value)) :: back) =
        Table.keys (front ++ (k, value) :: back) := by simp [Table.keys]
    rw [sameKeys, List.map_append]
    exact gathered.seen.again ⟨k, List.mem_map_of_mem listed, BEq.symm same⟩
  · have elsewhere : ∀ e, e ∈ front ∨ e ∈ back →
        total add none ((entries ++ [a]).filter fun b => key b == e.1) = some e.2 := by
      intro e beside
      apply gathered.totals_of_other
      · rw [List.mem_append, List.mem_cons]
        exact beside.imp_right .inr
      · rw [← BEq.congr_left same]
        exact others_apart gathered.seen.distinct e beside
    intro e member
    rcases List.mem_append.1 member with before | behind
    · exact elsewhere e (.inl before)
    · rcases List.mem_cons.1 behind with rfl | later
      · rw [total_filter_concat, BEq.symm same, gathered.totals _ listed]
        rfl
      · exact elsewhere e (.inr later)

theorem Gathered.concat (gathered : Gathered key add entries table) (own : (key a == key a) = true) :
    Gathered key add (entries ++ [a]) (update (key a) (add a) table) := by
  rcases update_cases (key a) (add a) table with
    ⟨absent, added⟩ | ⟨front, k, value, back, rfl, same, changed⟩
  · rw [added]
    exact gathered.new own absent
  · rw [changed]
    exact gathered.again same

theorem gather_gathered (add : α → Option β → β) (own : ∀ a ∈ entries, (key a == key a) = true) :
    Gathered key add entries (gather key add [] entries) := by
  induction entries using List.reverseRecOn with
  | nil => exact ⟨⟨nofun, nofun, .nil⟩, nofun⟩
  | append_singleton entries a ih =>
    rw [gather_concat]
    have before := ih fun b member => own b (List.mem_append_left _ member)
    exact before.concat (own a (by simp))

theorem perm_flatMap_filter (distinct : keys.Pairwise fun j k => (j == k) = false)
    (each : ∀ a ∈ entries, ∃ k ∈ keys, (key a == k) = true) :
    (keys.flatMap fun k => entries.filter fun a => key a == k).Perm entries := by
  induction keys generalizing entries with
  | nil =>
    cases entries with
    | nil => exact .nil
    | cons a rest =>
      obtain ⟨k, member, _⟩ := each a List.mem_cons_self
      cases member
  | cons k keys ih =>
    obtain ⟨apart, distinct⟩ := List.pairwise_cons.1 distinct
    -- What stands under a later key is not under the first one.
    have others : ∀ j ∈ keys, (entries.filter fun a => key a == j) =
        (entries.filter fun a => !(key a == k)).filter fun a => key a == j := by
      intro j member
      rw [List.filter_filter]
      refine List.filter_congr fun a _ => ?_
      cases same : key a == j with
      | false => rfl
      | true => rw [BEq.congr_left same, BEq.symm_false (apart j member), Bool.not_false, Bool.and_self]
    have rest : (keys.flatMap fun j => entries.filter fun a => key a == j).Perm
        (entries.filter fun a => !(key a == k)) := by
      rw [List.flatMap_congr others]
      refine ih distinct fun a member => ?_
      obtain ⟨inEntries, other⟩ := List.mem_filter.1 member
      obtain ⟨j, inKeys, same⟩ := each a inEntries
      rcases List.mem_cons.1 inKeys with rfl | later
      · rw [same] at other
        cases other
      · exact ⟨j, later, same⟩
    rw [List.flatMap_cons]
    exact (rest.append_left _).trans (List.filter_append_perm _ entries)

theorem Gathered.perm_flatMap {all : List α} (gathered : Gathered key add all table)
    (content : β → List α) (within : ∀ a ∈ entries, a ∈ all)
    (parts : ∀ p ∈ table, (content p.2).Perm (entries.filter fun a => key a == p.1)) :
    (table.flatMap fun p => content p.2).Perm entries := by
  have each : ∀ a ∈ entries, ∃ k ∈ Table.keys table, (key a == k) = true := fun a member =>
    gathered.seen.each (key a) (List.mem_map_of_mem (within a member))
  have together := perm_flatMap_filter gathered.seen.distinct each
  rw [Table.keys, List.flatMap_map] at together
  exact (List.Perm.flatMap_left table parts).trans together

end Table
end OperatorCalculus
