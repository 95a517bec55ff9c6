import OperatorCalculus.CommandLine.Disk
import OperatorCalculus.CommandLine.Run

namespace OperatorCalculus

namespace Disk

theorem run_bind {α β : Type} (j : Job α) (f : α → Job β) (d : Disk) :
    (d.run (j.bind f)).value = ((d.run j).disk.run (f (d.run j).value)).value ∧
      (d.run (j.bind f)).disk = ((d.run j).disk.run (f (d.run j).value)).disk := by
  induction j generalizing d with
  | done a => exact ⟨rfl, rfl⟩
  | say lines next ih => exact ih d
  | read path next ih => exact ih (d.read path) d
  | list directory next ih => exact ih (d.list directory) d
  | write path content next ih => exact ih (d.write path content).2 (d.write path content).1

variable {d : Disk} {place : List Text} {content : Text}

theorem put_keeps (files : List (List Text × Text)) {f : List Text × Text} (member : f ∈ files) :
    ∃ g ∈ put place content files, g.1 = f.1 := by
  induction files with
  | nil => simp at member
  | cons h rest ih =>
    rw [put]
    split
    · next same =>
      rcases List.mem_cons.1 member with rfl | later
      · exact ⟨_, List.mem_cons_self, (beq_iff_eq.1 same).symm⟩
      · exact ⟨f, List.mem_cons_of_mem _ later, rfl⟩
    · rcases List.mem_cons.1 member with rfl | later
      · exact ⟨f, List.mem_cons_self, rfl⟩
      · obtain ⟨g, there, same⟩ := ih later
        exact ⟨g, List.mem_cons_of_mem _ there, same⟩

theorem file?_put (d : Disk) :
    (Disk.mk (put place content d.files)).file? place = some content := by
  have found : ∀ files : List (List Text × Text),
      (put place content files).find? (fun f => f.1 == place) = some (place, content) := by
    intro files
    induction files with
    | nil => simp [put]
    | cons f rest ih =>
      rw [put]
      split
      · simp
      · next other => rw [List.find?_cons_of_neg (by simpa using other), ih]
  simp [file?, found]

theorem isDirectory_put {other : List Text} (directory : d.isDirectory other = true) :
    (Disk.mk (put place content d.files)).isDirectory other = true := by
  simp only [isDirectory, Bool.or_eq_true, List.any_eq_true] at directory ⊢
  rcases directory with root | ⟨f, member, below⟩
  · exact .inl root
  · obtain ⟨g, there, same⟩ := put_keeps d.files member
    exact .inr ⟨g, there, by rw [same]; exact below⟩

theorem walk_put (parts : List Text) : ∀ {other reached : List Text},
    d.walk other parts = .ok reached →
    (Disk.mk (put place content d.files)).walk other parts = .ok reached := by
  induction parts with
  | nil => exact fun arrived => arrived
  | cons part rest ih =>
    intro other reached arrived
    rw [walk] at arrived ⊢
    split at arrived
    · next directory =>
      rw [if_pos (isDirectory_put directory)]
      split at arrived
      · next still =>
        rw [if_pos still]
        exact ih arrived
      · next moves =>
        rw [if_neg moves]
        split at arrived
        · next up =>
          rw [if_pos up]
          split at arrived
          · cases arrived
          · next inner =>
            rw [if_neg inner]
            exact ih arrived
        · next down =>
          rw [if_neg down]
          exact ih arrived
    · split at arrived <;> cases arrived

theorem read_write {path : Text} {d' : Disk} (written : d.write path content = (d', none)) :
    d'.read path = .ok content := by
  rw [write] at written
  split at written
  · cases written
  · next place there =>
    split at written
    · cases written
    · cases written
      have again : (Disk.mk (put place content d.files)).resolve path = .ok place := by
        rw [resolve] at there ⊢
        split at there
        · cases there
        · next clean =>
          rw [if_neg clean]
          split at there
          · cases there
          · next inside =>
            rw [if_neg inside]
            exact walk_put _ there
      simp only [read, again, file?_put]

end Disk

namespace Task

def Gives {α : Type} (d : Disk) (t : Task α) (a : α) (d' : Disk) : Prop :=
  (d.run t.run).value = .ok a ∧ (d.run t.run).disk = d'

variable {α β : Type} {d d' d'' : Disk} {a : α} {b : β} {path content : Text}

theorem value_bind (d : Disk) (t : Task α) (f : α → Task β) :
    (d.run (t >>= f).run).value = match (d.run t.run).value with
      | .ok a => ((d.run t.run).disk.run (f a).run).value
      | .error failure => .error failure := by
  have parts := Disk.run_bind t.run (ExceptT.bindCont f) d
  have whole : (t >>= f).run = t.run.bind (ExceptT.bindCont f) := rfl
  rw [whole, parts.1]
  cases (d.run t.run).value with
  | ok a => rfl
  | error failure => rfl

theorem gives_pure {x : α} : Gives d (pure x) a d' ↔ a = x ∧ d' = d := by
  constructor
  · rintro ⟨same, rfl⟩
    exact ⟨(Except.ok.inj same).symm, rfl⟩
  · rintro ⟨rfl, rfl⟩
    exact ⟨rfl, rfl⟩

theorem gives_bind {t : Task α} {f : α → Task β} :
    Gives d (t >>= f) b d'' ↔ ∃ a d', Gives d t a d' ∧ Gives d' (f a) b d'' := by
  have parts := Disk.run_bind t.run (ExceptT.bindCont f) d
  have whole : (t >>= f).run = t.run.bind (ExceptT.bindCont f) := rfl
  rw [Gives, whole, parts.1, parts.2]
  cases first : (d.run t.run).value with
  | ok a =>
    constructor
    · intro later
      exact ⟨a, _, ⟨first, rfl⟩, later⟩
    · rintro ⟨a', d', ⟨same, rfl⟩, later⟩
      rw [first] at same
      cases same
      exact later
  | error e =>
    constructor
    · rintro ⟨same, _⟩
      cases same
    · rintro ⟨a', d', ⟨same, _⟩, _⟩
      rw [first] at same
      cases same

theorem gives_say {lines : List Text} {u : Unit} : Gives d (say lines) u d' ↔ d' = d :=
  ⟨fun ⟨_, same⟩ => same.symm, fun same => ⟨rfl, same.symm⟩⟩

theorem gives_readText {t : Text} : Gives d (readText path) t d' ↔
    ∃ content, d.read path = .ok content ∧ t = Text.unifyLineEnds content ∧ d' = d := by
  rw [Gives, readText, ExceptT.run_mk, Disk.run]
  cases found : d.read path with
  | ok content =>
    constructor
    · rintro ⟨same, rfl⟩
      exact ⟨content, rfl, (Except.ok.inj same).symm, rfl⟩
    · rintro ⟨_, same, rfl, rfl⟩
      cases same
      exact ⟨rfl, rfl⟩
  | error fault =>
    constructor
    · rintro ⟨same, _⟩
      cases same
    · rintro ⟨_, same, _⟩
      cases same

theorem gives_listNames {names : List Text} :
    Gives d (listNames path) names d' ↔ names = d.list path ∧ d' = d := by
  constructor
  · rintro ⟨same, rfl⟩
    exact ⟨(Except.ok.inj same).symm, rfl⟩
  · rintro ⟨rfl, rfl⟩
    exact ⟨rfl, rfl⟩

theorem gives_writeText {u : Unit} :
    Gives d (writeText path content) u d' ↔ d.write path content = (d', none) := by
  rw [Gives, writeText, ExceptT.run_mk, Disk.run]
  rcases d.write path content with ⟨after, _ | fault⟩
  · constructor
    · rintro ⟨_, rfl⟩
      rfl
    · intro same
      cases same
      exact ⟨rfl, rfl⟩
  · constructor
    · rintro ⟨same, _⟩
      cases same
    · intro same
      cases same

end Task
end OperatorCalculus
