import Mathlib.Data.List.Forall2
import OperatorCalculus.Proofs.Expression.Renaming

namespace OperatorCalculus

open Scan Text Operand

inductive Chunk where
  | word (w : Text)
  | mark (c : Char)
deriving DecidableEq

namespace Text

def chunks : Text → List Chunk
  | [] => []
  | c :: rest =>
    if isWord c then
      match chunks rest with
      | .word w :: more => .word (c :: w) :: more
      | more => .word [c] :: more
    else .mark c :: chunks rest

theorem chunks_mark {c : Char} (apart : isWord c = false) (rest : Text) :
    chunks (c :: rest) = .mark c :: chunks rest := by
  simp [chunks, apart]

theorem chunks_closed {v : Text} (closed : closesWord v = true) (w : Text) (more : List Chunk) :
    chunks v ≠ .word w :: more := by
  cases v with
  | nil => simp [chunks]
  | cons c rest =>
    have apart : isWord c = false := by simpa [closesWord_cons] using closed
    simp [chunks_mark apart]

theorem chunks_append_closed (u : Text) {v : Text} (closed : closesWord v = true) :
    chunks (u ++ v) = chunks u ++ chunks v := by
  induction u with
  | nil => rfl
  | cons c rest ih =>
    cases kind : isWord c with
    | false => rw [List.cons_append, chunks_mark kind, chunks_mark kind, ih, List.cons_append]
    | true =>
      rw [List.cons_append, chunks, chunks, ih, if_pos kind, if_pos kind]
      match front : chunks rest with
      | .word w :: more => rfl
      | .mark d :: more => rfl
      | [] =>
        match back : chunks v with
        | .word w :: more => exact absurd back (chunks_closed closed w more)
        | .mark d :: more => rfl
        | [] => rfl

theorem chunks_append_opened {u : Text} (opened : opensWord (behind none u) = true) (v : Text) :
    chunks (u ++ v) = chunks u ++ chunks v := by
  rcases List.eq_nil_or_concat u with rfl | ⟨x, c, rfl⟩
  · rfl
  · rw [List.concat_eq_append] at opened ⊢
    rw [behind_concat] at opened
    have apart : isWord c = false := by simpa [opensWord] using opened
    have closed : ∀ rest, closesWord (c :: rest) = true := fun rest => by
      rw [closesWord_cons, apart]
      rfl
    rw [List.append_assoc, List.singleton_append, chunks_append_closed x (closed v),
      chunks_append_closed x (closed []), chunks_mark apart, chunks_mark apart, List.append_assoc]
    rfl

theorem chunks_run {w : Text} (run : IsRun w) : chunks w = [.word w] := by
  obtain ⟨filled, word⟩ := run
  induction w with
  | nil => exact absurd rfl filled
  | cons c rest ih =>
    rw [chunks, if_pos (word c (by simp))]
    cases rest with
    | nil => rfl
    | cons d more => rw [ih (by simp) fun e member => word e (by simp [member])]

theorem chunks_between {before u after : Text} (filled : u ≠ []) (closed : closesWord u = true)
    (opened : opensWord (behind none u) = true) :
    chunks (before ++ u ++ after) = chunks before ++ chunks u ++ chunks after := by
  have closed' : closesWord (u ++ after) = true := by
    cases u with
    | nil => exact absurd rfl filled
    | cons c rest => exact closed
  rw [List.append_assoc, chunks_append_closed before closed', chunks_append_opened opened,
    List.append_assoc]

end Text

namespace Chunk

def text : Chunk → Text
  | .word w => w
  | .mark c => [c]

def isNumber : Chunk → Bool
  | .word w => isNumberWord w
  | .mark _ => false

end Chunk

def Part.chunk (image : Text → Text) : Part → Chunk
  | .gap [] => .word []
  | .gap (c :: t) => if isWord c then .word (c :: t) else .mark c
  | .operand _ v => .word (image v)

def Part.Clear : Part → Prop
  | .gap t => (∃ c, t = [c] ∧ isWord c = false) ∨ (IsRun t ∧ isNumberWord t = false)
  | .operand _ _ => True

theorem Part.chunk_gap (image : Text → Text) {t : Text} (clear : (Part.gap t).Clear) :
    ((Part.gap t).chunk image).text = t ∧ ((Part.gap t).chunk image).isNumber = false := by
  rcases clear with ⟨c, rfl, apart⟩ | ⟨run, other⟩
  · simp [chunk, apart, Chunk.text, Chunk.isNumber]
  · cases t with
    | nil => exact absurd rfl run.1
    | cons c t => simp [chunk, run.2 c (by simp), Chunk.text, Chunk.isNumber, other]

inductive Part.Aligned (image image' : Text → Text) : Part → Part → Prop where
  | gap (t : Text) : Aligned image image' (.gap t) (.gap t)
  | operand (k k' : Kind) {v u : Text} (same : image v = image' u) :
      Aligned image image' (.operand k v) (.operand k' u)

namespace Reading

variable {image image' : Text → Text} {ps qs : Reading}

def Clear (ps : Reading) : Prop := ∀ p ∈ ps, p.Clear

def Numbers (image : Text → Text) (ps : Reading) : Prop :=
  ∀ v ∈ values ps, isNumberWord (image v) = true

def Aligned (image image' : Text → Text) (ps qs : Reading) : Prop :=
  List.Forall₂ (Part.Aligned image image') ps qs

theorem part_aligned {p q : Part} (clearP : p.Clear) (clearQ : q.Clear)
    (numberP : ∀ k v, p = .operand k v → isNumberWord (image v) = true)
    (numberQ : ∀ k v, q = .operand k v → isNumberWord (image' v) = true)
    (same : p.chunk image = q.chunk image') : Part.Aligned image image' p q := by
  cases p with
  | gap t =>
    obtain ⟨textP, quietP⟩ := Part.chunk_gap image clearP
    cases q with
    | gap t' =>
      obtain ⟨textQ, _⟩ := Part.chunk_gap image' clearQ
      rw [same, textQ] at textP
      rw [textP]
      exact .gap t
    | operand k u =>
      have number : (Part.chunk image' (.operand k u)).isNumber = true := numberQ k u rfl
      rw [← same, quietP] at number
      cases number
  | operand k v =>
    cases q with
    | gap t =>
      have number : (Part.chunk image (.operand k v)).isNumber = true := numberP k v rfl
      rw [same, (Part.chunk_gap image' clearQ).2] at number
      cases number
    | operand k' u => exact .operand k k' (Chunk.word.inj same)

theorem aligned_of_chunks (clearP : Clear ps) (clearQ : Clear qs) (numbersP : Numbers image ps)
    (numbersQ : Numbers image' qs) (same : ps.map (Part.chunk image) = qs.map (Part.chunk image')) :
    Aligned image image' ps qs := by
  induction ps generalizing qs with
  | nil =>
    rw [List.map_nil, List.nil_eq, List.map_eq_nil_iff] at same
    rw [same]
    exact .nil
  | cons p ps ih =>
    obtain ⟨q, qs, rfl, own, later⟩ := List.map_eq_cons_iff.1 same.symm
    refine .cons (part_aligned (clearP p (by simp)) (clearQ q (by simp)) ?_ ?_ own.symm)
      (ih (fun r member => clearP r (by simp [member])) (fun r member => clearQ r (by simp [member]))
        (fun v member => numbersP v (mem_values_later member))
        (fun v member => numbersQ v (mem_values_later member))
        later.symm)
    · rintro k v rfl
      exact numbersP v (by simp [values])
    · rintro k v rfl
      exact numbersQ v (by simp [values])

variable {f g : Text → Text}

theorem Aligned.text_rename (aligned : Aligned image image' ps qs)
    (alike : ∀ v ∈ values ps, ∀ u ∈ values qs, image v = image' u → f v = g u) :
    text (rename f ps) = text (rename g qs) := by
  induction aligned with
  | nil => rfl
  | cons part later ih =>
    cases part with
    | gap t =>
      rw [rename_cons, rename_cons, text_cons, text_cons, ih alike]
      rfl
    | operand k k' same =>
      have own := alike _ (by simp [values]) _ (by simp [values]) same
      rw [rename_cons, rename_cons, text_cons, text_cons, ih fun v inP u inQ =>
        alike v (by simp [values, inP]) u (by simp [values, inQ])]
      simp only [Part.rename, Part.text, own]

theorem Aligned.map_alike (aligned : Aligned image image' ps qs)
    (alike : ∀ v ∈ values ps, ∀ u ∈ values qs, image v = image' u → f v = g u) :
    (values ps).map f = (values qs).map g := by
  induction aligned with
  | nil => rfl
  | cons part later ih =>
    cases part with
    | gap t => exact ih alike
    | operand k k' same =>
      have own := alike _ (by simp [values]) _ (by simp [values]) same
      have rest := ih fun v inP u inQ => alike v (by simp [values, inP]) u (by simp [values, inQ])
      rw [values, values, List.map_cons, List.map_cons, own, rest]

theorem Aligned.map_values (aligned : Aligned image image' ps qs) :
    (values ps).map image = (values qs).map image' :=
  aligned.map_alike fun _ _ _ _ same => same

theorem Aligned.image_of (aligned : Aligned image image' ps qs) {v : Text} (member : v ∈ values ps) :
    ∃ u ∈ values qs, image v = image' u := by
  have inside : image v ∈ (values qs).map image' :=
    aligned.map_values ▸ List.mem_map_of_mem member
  obtain ⟨u, place, same⟩ := List.mem_map.1 inside
  exact ⟨u, place, same.symm⟩

-- No word character stands right before a call or right behind it.
def Spaced (before : Option Char) (ps : Reading) : Prop :=
  ∀ as u bs, ps = as ++ .operand .function u :: bs →
    opensWord (behind before (text as)) = true ∧ closesWord (text bs) = true

theorem Spaced.tail {before : Option Char} {p : Part} {rest : Reading}
    (spaced : Spaced before (p :: rest)) : Spaced (behind before p.text) rest := by
  intro as u bs same
  have whole := spaced (p :: as) u bs (by rw [same]; rfl)
  rwa [text_cons, behind_append] at whole

end Reading

namespace Reads

open Reading

variable {escaped : Bool} {ps : Reading} {before : Option Char} {image : Text → Text}

theorem lead_empty {w u : Text} {rest : Reading} (word : ∀ c ∈ w, isWord c = true)
    (spaced : Spaced before (Part.lead w (.operand .function u :: rest))) : w = [] := by
  cases w with
  | nil => rfl
  | cons c w =>
    have opens := (spaced [.gap (c :: w)] u rest rfl).1
    have run : IsRun (c :: w) := ⟨by simp, word⟩
    rw [text_cons, text_nil, List.append_nil, Part.text, not_opens_behind_run run] at opens
    cases opens

theorem clear_of_spaced (reads : Reads escaped ps) (spaced : Spaced before ps) : Clear ps := by
  induction reads generalizing before with
  | done => intro p member; cases member
  | @mark escaped c rest apart later ih =>
    intro p member
    rcases List.mem_cons.1 member with rfl | member
    · exact .inl ⟨c, rfl, apart⟩
    · exact ih spaced.tail p member
  | @word escaped w rest run closed plain later ih =>
    intro p member
    rcases List.mem_cons.1 member with rfl | member
    · rcases Part.ofWord_cases escaped w with ⟨same, _⟩ | ⟨same, _⟩ | ⟨same, other⟩
      · rw [same]
        trivial
      · rw [same]
        trivial
      · rw [same]
        exact .inr ⟨run, other⟩
    · exact ih spaced.tail p member
  | @call escaped w u rest word plain isCall later ih =>
    have empty := lead_empty word spaced
    subst empty
    intro p member
    rcases List.mem_cons.1 member with rfl | member
    · trivial
    · exact ih (Spaced.tail spaced) p member

theorem headsKept_of_runs (reads : Reads escaped ps) (runs : ∀ v ∈ values ps, IsRun (image v)) :
    HeadsKept image ps := by
  constructor
  · intro v member
    obtain ⟨k, inside⟩ := mem_values.1 member
    exact reads.operand_head inside
  · intro v member
    obtain ⟨c, t, same⟩ := List.exists_cons_of_ne_nil (runs v member).1
    exact ⟨c, t, same, (runs v member).2 c (by simp [same])⟩

theorem chunks_rename (reads : Reads escaped ps) (spaced : Spaced before ps)
    (runs : ∀ v ∈ values ps, IsRun (image v)) :
    (text (Reading.rename image ps)).chunks = ps.map (Part.chunk image) := by
  induction reads generalizing before with
  | done => rfl
  | @mark escaped c rest apart later ih =>
    have own : (Part.gap [c]).chunk image = .mark c := by simp [Part.chunk, apart]
    rw [rename_cons, text_cons, List.map_cons, ← ih spaced.tail runs, own]
    exact chunks_mark apart _
  | @word escaped w rest run closed plain later ih =>
    have runs' : ∀ v ∈ values rest, IsRun (image v) :=
      fun v member => runs v (mem_values_later member)
    have closed' : closesWord (text (Reading.rename image rest)) = true := by
      rw [closesWord_rename (later.headsKept_of_runs runs'), closed]
    have own : (((Part.ofWord escaped w).rename image).text).chunks =
        [(Part.ofWord escaped w).chunk image] := by
      have gap : (Part.gap w).chunk image = .word w := by
        obtain ⟨c, t, rfl⟩ := List.exists_cons_of_ne_nil run.1
        simp [Part.chunk, run.2 c (by simp)]
      rcases Part.ofWord_or_gap escaped w with ⟨k, same⟩ | same
      · rw [same]
        exact chunks_run (runs w (by simp [same, values]))
      · rw [same, gap]
        exact chunks_run run
    rw [rename_cons, text_cons, chunks_append_closed _ closed', own, ih spaced.tail runs']
    rfl
  | @call escaped w u rest word plain isCall later ih =>
    have empty := lead_empty word spaced
    subst empty
    have runs' : ∀ v ∈ values rest, IsRun (image v) :=
      fun v member => runs v (by simp [values, member])
    have closed' : closesWord (text (Reading.rename image rest)) = true := by
      rw [closesWord_rename (later.headsKept_of_runs runs')]
      exact (spaced [] u rest rfl).2
    have own := chunks_run (runs u (by simp [values]))
    have split : text (Reading.rename image (Part.lead [] (.operand .function u :: rest))) =
        image u ++ text (Reading.rename image rest) := rfl
    rw [split, chunks_append_closed _ closed', own, ih (Spaced.tail spaced) runs']
    rfl

end Reads
end OperatorCalculus
