import OperatorCalculus.Proofs.Expression.Numbering

namespace OperatorCalculus

open Scan Text Operand

namespace Operand

def isVariable (v : Text) : Bool := isLetterWord v || isSubscriptedWord v

-- Letters may take a subscript; a subscript is never lost.
def Keeps (s : Text → Text) (v : Text) : Prop :=
  (isLetterWord v = true → isVariable (s v) = true) ∧
    (isSubscriptedWord v = true → isSubscriptedWord (s v) = true)

def onVariables (s : Text → Text) (v : Text) : Text := if isVariable v then s v else v

variable {s : Text → Text} {v w r : Text}

theorem isRun_of_variable (form : isVariable v = true) : IsRun v := by
  cases Bool.or_eq_true _ _ ▸ form with
  | inl letter => exact isRun_of_letter letter
  | inr subscripted => exact isRun_of_subscripted subscripted

theorem isVariable_of_keeps (keeps : Keeps s v) (form : isVariable v = true) :
    isVariable (s v) = true := by
  cases Bool.or_eq_true _ _ ▸ form with
  | inl letter => exact keeps.1 letter
  | inr subscripted => rw [isVariable, keeps.2 subscripted, Bool.or_true]

theorem not_variable_of_number (form : isNumberWord v = true) : isVariable v = false := by
  cases other : isVariable v with
  | false => rfl
  | true =>
    cases Bool.or_eq_true _ _ ▸ other with
    | inl letter =>
      rw [not_number_of_letter letter] at form
      cases form
    | inr subscripted =>
      rw [not_number_of_subscripted subscripted] at form
      cases form

theorem not_variable_of_call (isCall : IsCall v) : isVariable v = false := by
  cases other : isVariable v with
  | false => rfl
  | true =>
    obtain ⟨n, _, arguments, rfl, _⟩ := isCall
    have word := (isRun_of_variable other).2 '(' (by simp)
    cases word

theorem not_number_of_call (isCall : IsCall v) : isNumberWord v = false := by
  cases other : isNumberWord v with
  | false => rfl
  | true =>
    obtain ⟨n, _, arguments, rfl, _⟩ := isCall
    have digit := (isNumberWord_iff.1 other).2 '(' (by simp)
    cases digit

def isSeparator (c : Char) : Bool := c == ')' || c == ';' || c == ','

def separators (t : Text) : Text := t.filter isSeparator

theorem separators_append (t u : Text) : separators (t ++ u) = separators t ++ separators u :=
  List.filter_append ..

theorem separators_run (run : IsRun v) : separators v = [] := by
  refine List.filter_eq_nil_iff.2 fun c member => ?_
  have word := run.2 c member
  intro separates
  simp only [isSeparator, Bool.or_eq_true, beq_iff_eq] at separates
  rcases separates with (rfl | rfl) | rfl <;> cases word

theorem elem_separators {c : Char} (separates : isSeparator c = true) (t : Text) :
    (separators t).elem c = t.elem c := by
  rw [Bool.eq_iff_iff, List.elem_eq_mem, List.elem_eq_mem]
  simp [separators, separates]

theorem admits_separators (shape : ArgumentShape) (arguments : Text) :
    shape.admits (separators arguments) = shape.admits arguments := by
  cases shape with
  | free => rfl
  | split => exact elem_separators rfl arguments
  | splitBeforeComma =>
    have front : (separators arguments).takeWhile (· != ',') =
        separators (arguments.takeWhile (· != ',')) := by
      induction arguments with
      | nil => rfl
      | cons c rest ih =>
        unfold separators at ih ⊢
        by_cases comma : c = ','
        · subst comma
          rfl
        · cases separates : isSeparator c with
          | true => simp [separates, comma, ih]
          | false => simp [separates, comma, ih]
    rw [ArgumentShape.admits, ArgumentShape.admits, front]
    exact elem_separators rfl _

def ArgumentsAhead (shape : ArgumentShape) (body : Text) : Prop :=
  ∃ arguments y, body = arguments ++ ')' :: y ∧ ')' ∉ arguments ∧ shape.admits arguments = true

theorem argumentsAhead_separators {shape : ArgumentShape} {body : Text} :
    ArgumentsAhead shape (separators body) ↔ ArgumentsAhead shape body := by
  constructor
  · intro found
    obtain ⟨arguments, y, same, free, admitted⟩ := found
    obtain ⟨front, back, rfl, rfl, rest⟩ := List.filter_eq_append_iff.1 same
    obtain ⟨quiet, behind, rfl, none, _, _⟩ := List.filter_eq_cons_iff.1 rest
    have plain : separators quiet = [] := List.filter_eq_nil_iff.2 none
    have whole : separators (front ++ quiet) = front.filter isSeparator := by
      rw [separators_append, plain, List.append_nil]
      rfl
    refine ⟨front ++ quiet, behind, by simp, ?_, ?_⟩
    · intro member
      cases List.mem_append.1 member with
      | inl inFront => exact free (List.mem_filter.2 ⟨inFront, rfl⟩)
      | inr inQuiet => exact none _ inQuiet rfl
    · rw [← admits_separators, whole]
      exact admitted
  · intro found
    obtain ⟨arguments, y, rfl, free, admitted⟩ := found
    refine ⟨separators arguments, separators y, ?_, ?_, ?_⟩
    · rw [separators_append]
      rfl
    · intro member
      exact free (List.mem_filter.1 member).1
    · rwa [admits_separators]

theorem callAhead_run_iff (run : IsRun w) (closed : closesWord r = true) :
    CallAhead (w ++ r) ↔
      ∃ n ∈ callNames, n.1 = w ∧ ∃ body, r = '(' :: body ∧ ArgumentsAhead n.2 body := by
  constructor
  · intro found
    obtain ⟨u, y, same, n, member, arguments, rfl, free, admitted⟩ := found
    have aligned : w ++ r = n.1 ++ '(' :: (arguments ++ ')' :: y) := by simp [same]
    obtain ⟨name, rest⟩ := run_unique run closed (name_run member) rfl aligned
    exact ⟨n, member, name.symm, _, rest, arguments, y, rfl, free, admitted⟩
  · intro found
    obtain ⟨n, member, rfl, body, rfl, arguments, y, rfl, free, admitted⟩ := found
    exact ⟨n.1 ++ '(' :: (arguments ++ [')']), y, by simp, n, member, arguments, rfl, free, admitted⟩

theorem callAhead_glued_iff {u : Text} (word : ∀ c ∈ w, isWord c = true) (isCall : IsCall u) :
    CallAhead (w ++ (u ++ r)) ↔ IsCall (w ++ u) := by
  constructor
  · intro found
    obtain ⟨u', y, same, k, inK, others, rfl, freeK, admittedK⟩ := found
    obtain ⟨n, inN, arguments, rfl, freeN, _⟩ := isCall
    have run : IsRun (w ++ n.1) := by
      refine ⟨by simp [(name_run inN).1], fun c member => ?_⟩
      cases List.mem_append.1 member with
      | inl inW => exact word c inW
      | inr inName => exact (name_run inN).2 c inName
    have aligned : (w ++ n.1) ++ '(' :: (arguments ++ ')' :: r) =
        k.1 ++ '(' :: (others ++ ')' :: y) := by
      simpa using same
    obtain ⟨name, rest⟩ := run_unique run rfl (name_run inK) rfl aligned
    obtain ⟨rfl, _⟩ := arguments_unique freeN freeK (List.tail_eq_of_cons_eq rest)
    exact ⟨k, inK, arguments, by rw [← name]; simp, freeK, admittedK⟩
  · intro whole
    exact ⟨w ++ u, r, (List.append_assoc ..).symm, whole⟩

theorem callNames_not_variable : ∀ n ∈ callNames, isLetterWord n.1 = false := by
  decide

theorem noCallIn_variable (form : isVariable w = true) (closed : closesWord r = true) :
    NoCallIn w r := by
  intro u v same filled ahead
  have run : IsRun v := IsRun.tail (u := u) (same ▸ isRun_of_variable form) filled
  obtain ⟨n, member, rfl, _⟩ := (callAhead_run_iff run closed).1 ahead
  cases Bool.or_eq_true _ _ ▸ form with
  | inl letter =>
    obtain ⟨c, rfl, _⟩ := isLetterWord_iff.1 letter
    have short := congrArg List.length same
    have long := List.length_pos_iff.2 filled
    rw [List.length_append, List.length_singleton] at short
    have none : u = [] := List.eq_nil_of_length_eq_zero (by omega)
    rw [none, List.nil_append] at same
    rw [same, callNames_not_variable n member] at letter
    cases letter
  | inr subscripted =>
    obtain ⟨c, stem, digits, rfl, _, _, some, all⟩ := isSubscriptedWord_iff.1 subscripted
    have front := List.dropLast_concat_getLast some
    have back := List.dropLast_concat_getLast filled
    rw [← front, ← back, ← List.append_assoc, List.append_cons, ← List.append_assoc,
      ← List.cons_append] at same
    have last := List.singleton_inj.1 (List.append_inj_right' same rfl)
    have inside : digits.getLast some ∈ n.1 := last ▸ List.getLast_mem filled
    have isLetter' := (callNames_plain n member).2 _ inside
    have digit := all _ (List.getLast_mem some)
    rw [not_isDigit_of_isLetter isLetter'] at digit
    cases digit

theorem NoCallIn.transfer {r' : Text} (plain : NoCallIn w r) (word : ∀ c ∈ w, isWord c = true)
    (closed : closesWord r = true) (closed' : closesWord r' = true)
    (opens : ∀ body', r' = '(' :: body' →
      ∃ body, r = '(' :: body ∧ separators body = separators body') : NoCallIn w r' := by
  intro u v same filled ahead
  have run : IsRun v := ⟨filled, fun c member => word c (by simp [same, member])⟩
  obtain ⟨n, member, name, body', rfl, arguments⟩ := (callAhead_run_iff run closed').1 ahead
  obtain ⟨body, rfl, same'⟩ := opens body' rfl
  rw [← argumentsAhead_separators, ← same', argumentsAhead_separators] at arguments
  exact plain u v same filled
    ((callAhead_run_iff run closed).2 ⟨n, member, name, body, rfl, arguments⟩)

end Operand

namespace Reading

variable {image image' : Text → Text} {ps qs : Reading}

theorem filter_rename {P : Char → Bool}
    (same : ∀ v ∈ values ps, (image v).filter P = (image' v).filter P) :
    (text (rename image ps)).filter P = (text (rename image' ps)).filter P := by
  induction ps with
  | nil => rfl
  | cons p rest ih =>
    rw [rename_cons, rename_cons, text_cons, text_cons, List.filter_append, List.filter_append]
    cases p with
    | gap t => exact congrArg (t.filter P ++ ·) (ih same)
    | operand k v =>
      have own := same v (by simp [values])
      rw [ih fun u member => same u (by simp [values, member])]
      exact congrArg (· ++ (text (rename image' rest)).filter P) own

theorem separators_rename (same : ∀ v ∈ values ps, separators (image v) = separators v) :
    separators (text (rename image ps)) = separators (text ps) := by
  have kept : separators _ = separators (text (rename id ps)) := filter_rename same
  rwa [rename_id] at kept

structure HeadsKept (image : Text → Text) (ps : Reading) : Prop where
  before : ∀ v ∈ values ps, ∃ c t, v = c :: t ∧ isWord c = true
  after : ∀ v ∈ values ps, ∃ c t, image v = c :: t ∧ isWord c = true

theorem HeadsKept.mono (kept : HeadsKept image ps) (inside : ∀ v ∈ values qs, v ∈ values ps) :
    HeadsKept image qs :=
  ⟨fun v member => kept.before v (inside v member), fun v member => kept.after v (inside v member)⟩

theorem HeadsKept.tail {p : Part} (kept : HeadsKept image (p :: ps)) : HeadsKept image ps :=
  kept.mono fun _ => mem_values_later

theorem closesWord_rename (kept : HeadsKept image ps) :
    closesWord (text (rename image ps)) = closesWord (text ps) := by
  induction ps with
  | nil => rfl
  | cons p rest ih =>
    cases p with
    | gap t =>
      cases t with
      | nil => exact ih kept.tail
      | cons c t => rfl
    | operand k v =>
      obtain ⟨c, t, old, word⟩ := kept.before v (by simp [values])
      obtain ⟨d, u, new, word'⟩ := kept.after v (by simp [values])
      rw [rename_cons, text_cons, text_cons, Part.rename, Part.text, Part.text, new, old]
      simp [closesWord_cons, word, word']

theorem marked_rename (kept : HeadsKept image ps) {c : Char} {body' : Text}
    (apart : isWord c = false) (marked : text (rename image ps) = c :: body') :
    ∃ t rest, text ps = c :: (t ++ text rest) ∧ body' = t ++ text (rename image rest) ∧
      ∀ v ∈ values rest, v ∈ values ps := by
  induction ps with
  | nil => cases marked
  | cons p rest ih =>
    cases p with
    | gap t =>
      cases t with
      | nil => exact ih kept.tail marked
      | cons d t =>
        simp only [rename_cons, Part.rename, text_cons, Part.text, List.cons_append,
          List.cons.injEq] at marked
        obtain ⟨rfl, rfl⟩ := marked
        exact ⟨t, rest, rfl, rfl, fun v member => member⟩
    | operand k v =>
      obtain ⟨d, u, new, word⟩ := kept.after v (by simp [values])
      simp only [rename_cons, Part.rename, text_cons, Part.text, new, List.cons_append,
        List.cons.injEq] at marked
      rw [marked.1, apart] at word
      cases word

theorem opens_rename (kept : HeadsKept image ps)
    (same : ∀ v ∈ values ps, separators (image v) = separators v) {body' : Text}
    (opened : text (rename image ps) = '(' :: body') :
    ∃ body, text ps = '(' :: body ∧ separators body = separators body' := by
  obtain ⟨t, rest, whole, rfl, inside⟩ := marked_rename kept rfl opened
  refine ⟨_, whole, ?_⟩
  rw [separators_append, separators_append, separators_rename fun v member => same v (inside v member)]

end Reading

namespace Reads

open Reading

variable {s : Text → Text} {escaped : Bool} {ps qs : Reading}

theorem onVariables_of_not {v : Text} (other : isVariable v = false) : onVariables s v = v := by
  simp [onVariables, other]

theorem onVariables_of_variable {v : Text} (form : isVariable v = true) :
    onVariables s v = s v := by
  simp [onVariables, form]

theorem isVariable_iff_kind (reads : Reads escaped ps) {k : Kind} {v : Text}
    (member : Part.operand k v ∈ ps) : isVariable v = (k == .variable) := by
  rcases reads.operand_cases member with ⟨rfl, isCall⟩ | ⟨rfl, form⟩ | ⟨rfl, number⟩
  · exact not_variable_of_call isCall
  · cases form with
    | inl subscripted =>
      rw [isVariable, subscripted, Bool.or_true]
      rfl
    | inr letter =>
      rw [isVariable, letter, Bool.true_or]
      rfl
  · exact not_variable_of_number number

theorem separators_onVariables {v : Text} (keeps : isVariable v = true → Keeps s v) :
    separators (onVariables s v) = separators v := by
  cases form : isVariable v with
  | false => rw [onVariables_of_not form]
  | true =>
    rw [onVariables_of_variable form, separators_run (isRun_of_variable form),
      separators_run (isRun_of_variable (isVariable_of_keeps (keeps form) form))]

theorem headsKept (reads : Reads escaped ps)
    (keeps : ∀ v ∈ values ps, isVariable v = true → Keeps s v) :
    HeadsKept (onVariables s) ps := by
  have before : ∀ v ∈ values ps, ∃ c t, v = c :: t ∧ isWord c = true := by
    intro v member
    obtain ⟨k, inside⟩ := mem_values.1 member
    exact reads.operand_head inside
  refine ⟨before, fun v member => ?_⟩
  cases form : isVariable v with
  | false =>
    rw [onVariables_of_not form]
    exact before v member
  | true =>
    rw [onVariables_of_variable form]
    have run := isRun_of_variable (isVariable_of_keeps (keeps v member form) form)
    obtain ⟨c, t, same⟩ := List.exists_cons_of_ne_nil run.1
    exact ⟨c, t, same, run.2 c (by simp [same])⟩

theorem rename (reads : Reads escaped ps)
    (keeps : ∀ v ∈ values ps, isVariable v = true → Keeps s v) :
    Reads escaped (Reading.rename (onVariables s) ps) := by
  induction reads with
  | done => exact .done
  | mark apart later ih => exact .mark apart (ih keeps)
  | @word escaped w rest run closed plain later ih =>
    have keeps' : ∀ v ∈ values rest, isVariable v = true → Keeps s v :=
      fun v member => keeps v (mem_values_later member)
    have kept := later.headsKept keeps'
    have separate : ∀ v ∈ values rest, separators (onVariables s v) = separators v :=
      fun v member => separators_onVariables (keeps' v member)
    have closed' : closesWord (text (Reading.rename (onVariables s) rest)) = true := by
      rw [closesWord_rename kept, closed]
    have plain' : NoCallIn w (text (Reading.rename (onVariables s) rest)) :=
      plain.transfer run.2 closed closed' fun body opened => opens_rename kept separate opened
    rcases Part.ofWord_cases escaped w with ⟨same, form⟩ | ⟨same, number⟩ | ⟨same, _⟩
    · have variable_ : isVariable w = true := by
        rcases form with subscripted | ⟨letter, _⟩
        · rw [isVariable, subscripted, Bool.or_true]
        · rw [isVariable, letter, Bool.true_or]
      have own := keeps w (by simp [same, values]) variable_
      have image := isVariable_of_keeps own variable_
      have again : Part.ofWord escaped (s w) = .operand .variable (s w) := by
        rcases form with subscripted | ⟨_, unescaped⟩
        · exact Part.ofWord_subscripted _ (own.2 subscripted)
        · rw [unescaped]
          cases Bool.or_eq_true _ _ ▸ image with
          | inl letter => exact Part.ofWord_letter letter
          | inr subscripted => exact Part.ofWord_subscripted _ subscripted
      rw [rename_cons, same, Part.rename, onVariables_of_variable variable_, ← again]
      exact .word (isRun_of_variable image) closed' (noCallIn_variable image closed') (ih keeps')
    · rw [rename_cons, same, Part.rename, onVariables_of_not (not_variable_of_number number), ← same]
      exact .word run closed' plain' (ih keeps')
    · rw [rename_cons, same, Part.rename, ← same]
      exact .word run closed' plain' (ih keeps')
  | @call escaped w u rest word plain isCall later ih =>
    have keeps' : ∀ v ∈ values rest, isVariable v = true → Keeps s v :=
      fun v member => keeps v (by simp [values, member])
    rw [rename_lead, rename_cons, Part.rename, onVariables_of_not (not_variable_of_call isCall)]
    refine .call word ?_ isCall (ih keeps')
    intro a b same filled ahead
    have wordB : ∀ c ∈ b, isWord c = true := fun c member => word c (by simp [same, member])
    exact plain a b same filled ((callAhead_glued_iff wordB isCall).2
      ((callAhead_glued_iff wordB isCall).1 ahead))

end Reads

namespace Expression

open Reading

def variableNames (e : Text) : List Text :=
  ((Operand.extract e).filter (·.kind == .variable)).map Span.value

def renameVariables (s : Text → Text) (e : Text) : Text :=
  replaceAll s ((Operand.extract e).filter (·.kind == .variable)) e

variable {s : Text → Text} {ps qs : Reading}

theorem mem_variableNames_text (reads : Reads false ps) {v : Text} :
    v ∈ variableNames (text ps) ↔ v ∈ values ps ∧ isVariable v = true := by
  simp only [variableNames, reads.extract_text, List.mem_map, List.mem_filter]
  constructor
  · intro found
    obtain ⟨t, ⟨member, kind⟩, rfl⟩ := found
    obtain ⟨as, bs, split, _⟩ := mem_tokens.1 member
    have inside : Part.operand t.kind t.value ∈ ps := by simp [split]
    exact ⟨mem_values.2 ⟨_, inside⟩, (reads.isVariable_iff_kind inside).trans kind⟩
  · intro found
    obtain ⟨member, form⟩ := found
    obtain ⟨k, inside⟩ := mem_values.1 member
    obtain ⟨as, bs, split⟩ := List.append_of_mem inside
    rw [reads.isVariable_iff_kind inside] at form
    exact ⟨⟨v, (text as).length, k⟩, ⟨mem_tokens.2 ⟨as, bs, split, by simp⟩, form⟩, rfl⟩

theorem renameVariables_text (reads : Reads false ps) (s : Text → Text) :
    renameVariables s (text ps) = text (Reading.rename (onVariables s) ps) := by
  have agrees : ∀ k v, Part.operand k v ∈ ps →
      onVariables s v = if k == .variable then s v else v := by
    intro k v member
    rw [onVariables, reads.isVariable_iff_kind member]
  rw [renameVariables, reads.extract_text]
  exact replaceAll_tokens (· == .variable) s [] agrees

-- A renaming of the variables of two expressions: different ones stay different, a
-- letter becomes a letter or a subscripted variable, a subscripted one stays subscripted.
structure Renames (s : Text → Text) (left right : Text) : Prop where
  distinct : Set.InjOn s {v | v ∈ variableNames left ∨ v ∈ variableNames right}
  keeps : ∀ v, v ∈ variableNames left ∨ v ∈ variableNames right → Keeps s v

theorem onVariables_injOn (left : Reads false ps) (right : Reads false qs)
    (renames : Renames s (text ps) (text qs)) :
    Set.InjOn (onVariables s) {v | v ∈ values ps ∨ v ∈ values qs} := by
  have place : ∀ v, v ∈ values ps ∨ v ∈ values qs → isVariable v = true →
      v ∈ variableNames (text ps) ∨ v ∈ variableNames (text qs) := by
    intro v member form
    cases member with
    | inl inLeft => exact .inl ((mem_variableNames_text left).2 ⟨inLeft, form⟩)
    | inr inRight => exact .inr ((mem_variableNames_text right).2 ⟨inRight, form⟩)
  have image : ∀ v, v ∈ values ps ∨ v ∈ values qs → isVariable v = true →
      isVariable (s v) = true :=
    fun v member form => isVariable_of_keeps (renames.keeps v (place v member form)) form
  intro v inV w inW same
  cases formV : isVariable v with
  | true =>
    cases formW : isVariable w with
    | true =>
      rw [Reads.onVariables_of_variable formV, Reads.onVariables_of_variable formW] at same
      exact renames.distinct (place v inV formV) (place w inW formW) same
    | false =>
      rw [Reads.onVariables_of_variable formV, Reads.onVariables_of_not formW] at same
      rw [← same, image v inV formV] at formW
      cases formW
  | false =>
    cases formW : isVariable w with
    | true =>
      rw [Reads.onVariables_of_not formV, Reads.onVariables_of_variable formW] at same
      rw [same, image w inW formW] at formV
      cases formV
    | false => rwa [Reads.onVariables_of_not formV, Reads.onVariables_of_not formW] at same

theorem canonicalPair_renameVariables {left right : Text} (renames : Renames s left right) :
    canonicalPair (renameVariables s left) (renameVariables s right) = canonicalPair left right := by
  obtain ⟨ps, readsL, rfl⟩ := Reads.exists_of_text left false
  obtain ⟨qs, readsR, rfl⟩ := Reads.exists_of_text right false
  have keepsL : ∀ v ∈ values ps, isVariable v = true → Keeps s v :=
    fun v member form => renames.keeps v (.inl ((mem_variableNames_text readsL).2 ⟨member, form⟩))
  have keepsR : ∀ v ∈ values qs, isVariable v = true → Keeps s v :=
    fun v member form => renames.keeps v (.inr ((mem_variableNames_text readsR).2 ⟨member, form⟩))
  rw [renameVariables_text readsL, renameVariables_text readsR]
  exact readsL.canonicalPair_rename readsR (readsL.rename keepsL) (readsR.rename keepsR)
    (onVariables_injOn readsL readsR renames)

end Expression
end OperatorCalculus
