import OperatorCalculus.Text.Integer

-- Arguments are cut into options and positional arguments. Options may stand anywhere,
-- long ones may be shortened while they stay unambiguous, and their value may follow an
-- equals sign. A double hyphen ends the options. The first one that an argument is given
-- is no part of it: an argument that is given nothing else is there, and has no text.
namespace OperatorCalculus

-- Help is shown as soon as it is met; everything wrong before that counts first.
inductive Stop where
  | help
  | misuse
deriving DecidableEq, Repr

inductive OptionAction where
  | help
  | flag (key : Text)
  | value (key : Text) (valid : Text → Bool)

structure OptionName where
  text : Text
  action : OptionAction

inductive Arity where
  | one
  | optional
  | rest
deriving DecidableEq, Repr

structure Grammar where
  options : List OptionName
  positionals : List Arity

structure OptionHit where
  action : Option OptionAction
  attached : Option Text

inductive ArgumentClass where
  | plain
  | hyphens
  | option (hit : OptionHit)

structure Argument where
  kind : ArgumentClass
  text : Text

structure Parsed where
  settings : List (Text × Option Text)
  positionals : List (Option Text)
  rest : Option (List Text)
  unknown : Bool

namespace Options

def doubleHyphen : Text := ['-', '-']

def partition (t : Text) : Text × Option Text :=
  match t.dropWhile (· != '=') with
  | [] => (t, none)
  | _ :: rest => (t.takeWhile (· != '='), some rest)

def action? (g : Grammar) (name : Text) : Option OptionAction :=
  (g.options.find? fun o => o.text == name).map OptionName.action

def longHits (g : Grammar) (t : Text) : List OptionHit :=
  let (name, value) := partition t
  (g.options.filter fun o => name.isPrefixOf o.text).map fun o =>
    ⟨some o.action, value⟩

def shortHits (g : Grammar) (t : Text) : List OptionHit :=
  g.options.filterMap fun o =>
    if o.text == t.take 2 then some ⟨some o.action, some (t.drop 2)⟩
    else if t.isPrefixOf o.text then some ⟨some o.action, none⟩
    else none

-- A hyphen before a number does not make an option; one line end behind it is allowed.
def isNegativeNumber (t : Text) : Bool :=
  let body := if t.getLast? == some '\n' then t.dropLast else t
  match body with
  | '-' :: rest =>
    match rest.dropWhile Text.isDecimalDigit with
    | [] => !rest.isEmpty
    | '.' :: fraction => !fraction.isEmpty && fraction.all Text.isDecimalDigit
    | _ => false
  | _ => false

def unknownOrPlain (t : Text) : ArgumentClass :=
  if isNegativeNumber t || t.elem ' ' then .plain else .option ⟨none, none⟩

def classify (g : Grammar) (t : Text) : Except Stop ArgumentClass :=
  if t.head? != some '-' then .ok .plain
  else match action? g t with
    | some action => .ok (.option ⟨some action, none⟩)
    | none =>
      if t.length == 1 then .ok .plain
      else
        let (name, value) := partition t
        match value, action? g name with
        | some v, some action => .ok (.option ⟨some action, some v⟩)
        | _, _ =>
          match (if (t.drop 1).head? == some '-' then longHits g t else shortHits g t) with
          | [] => .ok (unknownOrPlain t)
          | [hit] => .ok (.option hit)
          | _ => .error .misuse

def classifyAll (g : Grammar) : List Text → Except Stop (List Argument)
  | [] => .ok []
  | t :: rest =>
    if t == doubleHyphen then .ok (⟨.hyphens, t⟩ :: rest.map (Argument.mk .plain))
    else do
      let kind ← classify g t
      let more ← classifyAll g rest
      return ⟨kind, t⟩ :: more

def isOption (a : Argument) : Bool :=
  match a.kind with
  | .option _ => true
  | _ => false

def isPlain (a : Argument) : Bool :=
  match a.kind with
  | .plain => true
  | _ => false

def isHyphens (a : Argument) : Bool :=
  match a.kind with
  | .hyphens => true
  | _ => false

def take? (arity : Arity) (args : List Argument) : Option (List Argument × List Argument) :=
  let lead := args.takeWhile isHyphens
  let body := args.dropWhile isHyphens
  match arity, body with
  | .one, [] => none
  | .one, a :: rest =>
    if isPlain a then some (lead ++ a :: rest.takeWhile isHyphens, rest.dropWhile isHyphens)
    else none
  | .optional, [] => some (lead, [])
  | .optional, a :: rest =>
    if isPlain a then some (lead ++ a :: rest.takeWhile isHyphens, rest.dropWhile isHyphens)
    else some (lead, body)
  | .rest, [] => none
  | .rest, a :: _ => if isPlain a then some (args, []) else none

-- The first double hyphen among them is not the value.
def valueOf (args : List Argument) : Option Text :=
  ((args.map Argument.text).erase doubleHyphen).head?

structure State where
  pending : List Arity
  parsed : Parsed

def takePositionals : List Arity → List Argument → Parsed → State × List Argument
  | [], args, p => (⟨[], p⟩, args)
  | arity :: more, args, p =>
    match take? arity args with
    | none => (⟨arity :: more, p⟩, args)
    | some (taken, behind) =>
      match arity with
      | .rest => takePositionals more behind { p with rest := some (taken.map Argument.text) }
      | _ => takePositionals more behind
          { p with positionals := p.positionals ++ [valueOf taken] }

-- Letters behind the short help option must be help again.
def helpWith (attached : Option Text) (isLong : Bool) : Stop :=
  match attached with
  | none => .help
  | some letters =>
    if !isLong && !letters.isEmpty && letters.all (· == 'h') then .help else .misuse

def takeOption (hit : OptionHit) (text : Text) (behind : List Argument) (p : Parsed) :
    Except Stop (List Argument × Parsed) :=
  match hit.action with
  | none => .ok (behind, { p with unknown := true })
  | some .help => .error (helpWith hit.attached ((text.drop 1).head? == some '-'))
  | some (.flag key) =>
    match hit.attached with
    | none => .ok (behind, { p with settings := p.settings ++ [(key, some [])] })
    | some _ => .error .misuse
  | some (.value key valid) =>
    let store := fun (v : Text) (left : List Argument) =>
      let given := if v == doubleHyphen then none else some v
      if given.all valid then (.ok (left, { p with settings := p.settings ++ [(key, given)] }) :
        Except Stop (List Argument × Parsed))
      else .error .misuse
    match hit.attached, behind with
    | some v, left => store v left
    | none, a :: left => if isPlain a then store a.text left else .error .misuse
    | none, [] => .error .misuse

-- Positional arguments are taken as far as they go before each option and after the
-- last one. Every round takes an argument, so the fuel is their number.
def consume : Nat → List Argument → State → Except Stop State
  | 0, _, s => .ok s
  | fuel + 1, args, s =>
    if args.any isOption then
      let (s', behind) :=
        if (args.head?.map isOption).getD false then (s, args)
        else takePositionals s.pending args s.parsed
      if behind.length < args.length then consume fuel behind s'
      else
        let skipped := args.takeWhile fun a => !isOption a
        match args.dropWhile fun a => !isOption a with
        | ⟨.option hit, text⟩ :: rest =>
          match takeOption hit text rest s'.parsed with
          | .error stop => .error stop
          | .ok (left, p) =>
            consume fuel left ⟨s'.pending, { p with unknown := p.unknown || !skipped.isEmpty }⟩
        | _ => .ok s'
    else
      let (s', behind) := takePositionals s.pending args s.parsed
      .ok ⟨s'.pending, { s'.parsed with unknown := s'.parsed.unknown || !behind.isEmpty }⟩

def parse (g : Grammar) (args : List Text) : Except Stop Parsed := do
  let classified ← classifyAll g args
  let final ← consume (classified.length + 1) classified ⟨g.positionals, ⟨[], [], none, false⟩⟩
  if final.pending.isEmpty then return final.parsed else throw .misuse

def setting? (key : Text) (p : Parsed) : Option (Option Text) :=
  (p.settings.reverse.find? fun s => s.1 == key).map (·.2)

end Options
end OperatorCalculus
