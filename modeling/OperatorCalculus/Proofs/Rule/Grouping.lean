import OperatorCalculus.Proofs.Rule.Gathering
import OperatorCalculus.Proofs.Rule.Heading

namespace OperatorCalculus

namespace Listing

open Table

variable {κ τ α : Type}

def filed (groups : Groups κ τ α) : List α := groups.flatMap fun g => g.2.flatMap fun b => b.2

def bucket [BEq τ] (type : τ) (types : List (τ × List α)) : List α := (get? type types).getD []

-- Each entry is filed once, behind the others of its category and its type. Categories, and
-- the types of a category, come in the order of their first entries.
structure Grouped [BEq κ] [BEq τ] (category : α → κ) (type : α → τ) (entries : List α)
    (groups : Groups κ τ α) : Prop where
  once : (filed groups).Perm entries
  categories : FirstSeen (keys groups) (entries.map category)
  types : ∀ g ∈ groups,
    FirstSeen (keys g.2) ((entries.filter fun e => category e == g.1).map type)
  buckets : ∀ g ∈ groups, ∀ b ∈ g.2,
    b.2 = entries.filter fun e => category e == g.1 && type e == b.1

-- The counts of the types are the sizes of their buckets over all categories.
structure Tallied (groups : Groups κ Text α) (size : Nat) (counts : List (Text × Nat)) : Prop where
  headings : keys counts = allKey :: Rule.types
  whole : get? allKey counts = some size
  parts : ∀ t ∈ Rule.types,
    get? t counts = some (groups.map fun g => (bucket t g.2).length).sum
  sum : (Rule.types.map fun t => (get? t counts).getD 0).sum = size

def push (e : α) (entries : Option (List α)) : List α := entries.getD [] ++ [e]

theorem total_push (entries : List α) : (total push none entries).getD [] = entries := by
  induction entries using List.reverseRecOn with
  | nil => rfl
  | append_singleton entries e ih => rw [total_concat, Option.getD_some, push, ih]

theorem total_count (n : Nat) (entries : List α) :
    total (fun _ n => n.getD 0 + 1) (some n) entries = some (n + entries.length) := by
  induction entries using List.reverseRecOn with
  | nil => rfl
  | append_singleton entries e ih =>
    rw [total_concat, ih, List.length_append, ← Nat.add_assoc]
    rfl

section Groups

-- Every entry has a category that can head a group.
variable [BEq κ] [PartialEquivBEq κ] [BEq τ] {category : α → κ} {entries : List α}
  (own : ∀ e ∈ entries, (category e == category e) = true) {type : α → τ}

include own

theorem groupBy_gathered (type : α → τ) :
    Gathered category (fun e types => update (type e) (push e) (types.getD [])) entries
      (groupBy category type entries) :=
  gather_gathered _ own

theorem types_of_group {g : κ × List (τ × List α)} (member : g ∈ groupBy category type entries) :
    g.2 = gather type push [] (entries.filter fun e => category e == g.1) := by
  have come := (groupBy_gathered own type).totals g member
  have fold := total_fold (fun types e => update (type e) (push e) types) []
    (entries.filter fun e => category e == g.1) none
  rw [come] at fold
  exact fold

theorem grouped [EquivBEq τ] (type : α → τ) :
    Grouped category type entries (groupBy category type entries) := by
  have outer := groupBy_gathered own type
  have inner : ∀ g ∈ groupBy category type entries,
      Gathered type push (entries.filter fun e => category e == g.1) g.2 := by
    intro g member
    rw [types_of_group own member]
    exact gather_gathered push fun _ _ => BEq.rfl
  have buckets : ∀ g ∈ groupBy category type entries, ∀ b ∈ g.2,
      b.2 = (entries.filter fun e => category e == g.1).filter fun e => type e == b.1 := by
    intro g member b inside
    have all := total_push ((entries.filter fun e => category e == g.1).filter fun e => type e == b.1)
    rwa [(inner g member).totals b inside] at all
  refine ⟨?_, outer.seen, fun g member => (inner g member).seen, ?_⟩
  · apply outer.perm_flatMap (fun types => types.flatMap fun b => b.2) fun _ member => member
    intro g member
    apply (inner g member).perm_flatMap id fun _ inside => inside
    intro b inside
    exact .of_eq (buckets g member b inside)
  · intro g member b inside
    rw [buckets g member b inside, List.filter_filter]
    exact List.filter_congr fun e _ => Bool.and_comm _ _

theorem bucket_of_group [LawfulBEq τ] {g : κ × List (τ × List α)}
    (member : g ∈ groupBy category type entries) (t : τ) :
    bucket t g.2 = (entries.filter fun e => category e == g.1).filter fun e => type e == t := by
  rw [bucket, types_of_group own member, get?_gather]
  exact total_push _

theorem sum_buckets [LawfulBEq τ] (t : τ) :
    ((groupBy category type entries).map fun g => (bucket t g.2).length).sum =
      (entries.filter fun e => type e == t).length := by
  have outer := groupBy_gathered own type
  have all : ((groupBy category type entries).flatMap fun g => bucket t g.2).Perm
      (entries.filter fun e => type e == t) := by
    apply outer.perm_flatMap (bucket t) fun e member => (List.mem_filter.1 member).1
    intro g member
    rw [bucket_of_group own member, List.filter_comm]
  rw [← List.length_flatMap]
  exact all.length_eq

end Groups

section Counts

variable {types : List Text} {t : Text}

theorem get?_countTypes (types : List Text) (k : Text) : get? k (countTypes types) =
    total (fun _ n => n.getD 0 + 1) (get? k ((allKey, types.length) :: Rule.types.map fun t => (t, 0)))
      (types.filter fun t => t == k) :=
  get?_gather k id (fun _ n => n.getD 0 + 1) _ types

theorem keys_countTypes (known : ∀ t ∈ types, t ∈ Rule.types) :
    keys (countTypes types) = allKey :: Rule.types :=
  keys_gather_of_mem id _ fun t member => List.mem_cons_of_mem allKey (known t member)

theorem count_of_known (known : t ∈ Rule.types) :
    get? t (countTypes types) = some (types.filter fun s => s == t).length := by
  have starts : ∀ t ∈ Rule.types,
      get? t ((allKey, types.length) :: Rule.types.map fun t => (t, 0)) = some 0 := by
    simp only [Rule.types, List.forall_mem_cons]
    exact ⟨rfl, rfl, rfl, nofun⟩
  rw [get?_countTypes, starts t known, total_count, Nat.zero_add]

theorem count_of_all (known : ∀ t ∈ types, t ∈ Rule.types) :
    get? allKey (countTypes types) = some types.length := by
  have other : allKey ∉ Rule.types := by decide
  have none : types.filter (fun t => t == allKey) = [] := by
    rw [List.filter_eq_nil_iff]
    intro t member same
    exact other (beq_iff_eq.1 same ▸ known t member)
  rw [get?_countTypes, none]
  rfl

end Counts

variable [BEq κ] [PartialEquivBEq κ] {category : α → κ} {type : α → Text} {entries : List α}

theorem tallied (own : ∀ e ∈ entries, (category e == category e) = true)
    (known : ∀ e ∈ entries, type e ∈ Rule.types) :
    Tallied (groupBy category type entries) entries.length (countTypes (entries.map type)) := by
  have knownTypes : ∀ t ∈ entries.map type, t ∈ Rule.types := List.forall_mem_map.2 known
  have counted : ∀ t ∈ Rule.types, get? t (countTypes (entries.map type)) =
      some (entries.filter fun e => type e == t).length := by
    intro t member
    rw [count_of_known member, List.filter_map, List.length_map]
    rfl
  refine ⟨keys_countTypes knownTypes, ?_, ?_, ?_⟩
  · rw [count_of_all knownTypes, List.length_map]
  · intro t member
    rw [counted t member, sum_buckets own t]
  · have distinct : Rule.types.Pairwise fun s t => (s == t) = false := by decide
    have together := perm_flatMap_filter distinct fun e member => ⟨type e, known e member, BEq.rfl⟩
    rw [← together.length_eq, List.length_flatMap]
    refine congrArg List.sum (List.map_congr_left fun t member => ?_)
    rw [counted t member, Option.getD_some]

-- A listing shows every rule once and in its place, and the counts in its head are those of
-- what it shows. The same is true of records, whose categories are compared as headings.
theorem groups_agree_with_counts (rules : List Rule) (known : ∀ r ∈ rules, r.type ∈ Rule.types) :
    (Grouped Rule.category Rule.type rules (group rules) ∧
      Tallied (group rules) rules.length (counts rules)) ∧
    ∀ records : List Record, (∀ r ∈ records, r.type ∈ Rule.types ∧ r.category.canHead = true) →
      ∃ groups, RecordListing.group records = .ok groups ∧
        Grouped (fun r => Heading.mk r.category) Record.type records groups ∧
        Tallied groups records.length (RecordListing.counts records) := by
  have own : ∀ r ∈ rules, (r.category == r.category) = true := fun _ _ => BEq.rfl
  refine ⟨⟨grouped own Rule.type, tallied own known⟩, ?_⟩
  intro records listed
  have own : ∀ r ∈ records, (Heading.mk r.category == Heading.mk r.category) = true :=
    fun r member => Heading.beq_self (listed r member).2
  have heads : (records.all fun r => r.category.canHead) = true :=
    List.all_eq_true.2 fun r member => (listed r member).2
  refine ⟨_, if_pos heads, grouped own Record.type, ?_⟩
  exact tallied own fun r member => (listed r member).1

-- The same rule given twice is shown twice. Of the records two are filed under the number one,
-- which the second writes as a truth value, and the last under the text.
theorem groups_agree_with_counts_interleaved :
    let rule : Text → Text → Text → Rule := fun id type category =>
      ⟨id, [], type, category, [], [','], [','], none, none⟩
    let a := rule ['a'] Rule.axiomType "logic".toList
    let b := rule ['b'] Rule.theoremType "operators".toList
    let c := rule ['c'] Rule.definitionType "logic".toList
    let record : Json → Record := fun category => { a.toRecord with category := category }
    let records := [record (.int 1), record (.str ['1']), record (.bool true)]
    (∀ r ∈ [a, b, a, c], r.type ∈ Rule.types) ∧
    (∀ r ∈ records, r.type ∈ Rule.types ∧ r.category.canHead = true) ∧
    Grouped Rule.category Rule.type [a, b, a, c] (group [a, b, a, c]) ∧
    Tallied (group [a, b, a, c]) 4 (counts [a, b, a, c]) ∧
    group [a, b, a, c] =
      [("logic".toList, [(Rule.axiomType, [a, a]), (Rule.definitionType, [c])]),
        ("operators".toList, [(Rule.theoremType, [b])])] ∧
    (∃ groups, RecordListing.group records = .ok groups ∧
      Grouped (fun r => Heading.mk r.category) Record.type records groups ∧
      Tallied groups 3 (RecordListing.counts records)) ∧
    RecordListing.group records =
      .ok [(⟨.int 1⟩, [(Rule.axiomType, [record (.int 1), record (.bool true)])]),
        (⟨.str ['1']⟩, [(Rule.axiomType, [record (.str ['1'])])])] := by
  intro rule a b c record records
  have known : ∀ r ∈ [a, b, a, c], r.type ∈ Rule.types := by decide
  have listed : ∀ r ∈ records, r.type ∈ Rule.types ∧ r.category.canHead = true := by
    simp only [records, List.forall_mem_cons]
    exact ⟨⟨by decide, rfl⟩, ⟨by decide, rfl⟩, ⟨by decide, rfl⟩, nofun⟩
  obtain ⟨⟨together, tallied⟩, others⟩ := groups_agree_with_counts [a, b, a, c] known
  exact ⟨known, listed, together, tallied, by decide, others records listed, rfl⟩

end Listing
end OperatorCalculus
