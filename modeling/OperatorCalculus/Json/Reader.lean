import OperatorCalculus.Json.Value

-- Reading of structured values. A fault is a cause with the place where it was
-- found; the place is kept as the number of characters still unread, and turned
-- into an offset, a line and a column only when the fault is reported.
namespace OperatorCalculus
namespace Json

inductive Cause where
  | valueExpected
  | extraData
  | nameExpected
  | colonExpected
  | commaExpected
  | unterminated
  | controlCharacter
  | unknownEscape
  | brokenUnicodeEscape
  | byteOrderMark
  | integerTooLong (digits : Nat)
  | nestedTooDeeply
deriving DecidableEq, Repr

structure Fault where
  cause : Cause
  unread : Nat
deriving DecidableEq, Repr

abbrev Read (α : Type) := Except Fault (α × Text)

def fault {α : Type} (cause : Cause) (place : Text) : Except Fault α := .error ⟨cause, place.length⟩

def isSpace (c : Char) : Bool := c == ' ' || c == '\t' || c == '\n' || c == '\r'

def skipSpace (t : Text) : Text := t.dropWhile isSpace

def hexValue (c : Char) : Option Nat :=
  if Text.isDigit c then some (c.toNat - 48)
  else if 'a' ≤ c && c ≤ 'f' then some (c.toNat - 87)
  else if 'A' ≤ c && c ≤ 'F' then some (c.toNat - 55)
  else none

def hexNumber (a b c d : Char) : Option Nat := do
  let a ← hexValue a
  let b ← hexValue b
  let c ← hexValue c
  let d ← hexValue d
  some (((a * 16 + b) * 16 + c) * 16 + d)

def isHighHalf (n : Nat) : Bool := 0xD800 ≤ n && n ≤ 0xDBFF
def isLowHalf (n : Nat) : Bool := 0xDC00 ≤ n && n ≤ 0xDFFF

def unitOf (n : Nat) : StringUnit :=
  if isHighHalf n || isLowHalf n then .half n else .char (Char.ofNat n)

def pairChar (high low : Nat) : Char :=
  Char.ofNat (0x10000 + (high - 0xD800) * 0x400 + (low - 0xDC00))

def plainEscape : Char → Option Char
  | '\x22' => some '\x22'
  | '\\' => some '\\'
  | '/' => some '/'
  | 'b' => some '\x08'
  | 'f' => some '\x0c'
  | 'n' => some '\n'
  | 'r' => some '\r'
  | 't' => some '\t'
  | _ => none

def consUnit (u : StringUnit) : Read Spelling → Read Spelling
  | .ok (units, rest) => .ok (u :: units, rest)
  | .error f => .error f

-- What an escape stands for and how many characters behind the backslash it takes.
-- A four-digit escape must be followed by one more character.
def readUnicodeEscape (mark : Text) : Text → Except Fault (StringUnit × Nat)
  | a :: b :: c :: d :: e :: rest =>
    match hexNumber a b c d with
    | none => fault .brokenUnicodeEscape mark
    | some high =>
      match isHighHalf high && e == '\\', rest with
      | true, 'u' :: a' :: b' :: c' :: d' :: _ :: _ =>
        match hexNumber a' b' c' d' with
        | none => fault .brokenUnicodeEscape rest
        | some low =>
          if isLowHalf low then .ok (.char (pairChar high low), 11) else .ok (unitOf high, 5)
      | _, _ => .ok (unitOf high, 5)
  | _ => fault .brokenUnicodeEscape mark

def readEscape (opening : Text) : Text → Except Fault (StringUnit × Nat)
  | [] => fault .unterminated opening
  | 'u' :: rest => readUnicodeEscape ('u' :: rest) rest
  | c :: rest =>
    match plainEscape c with
    | some x => .ok (.char x, 1)
    | none => fault .unknownEscape ('\\' :: c :: rest)

-- The text up to the closing mark. An unterminated string is reported at its opening
-- mark, so the text that starts with the mark comes along; skip counts the
-- characters that an escape has already used.
def readString (opening : Text) (skip : Nat) : Text → Read Spelling
  | [] => fault .unterminated opening
  | c :: rest =>
    match skip with
    | n + 1 => readString opening n rest
    | 0 =>
      if c == '\x22' then .ok ([], rest)
      else if c == '\\' then
        match readEscape opening rest with
        | .ok (u, used) => consUnit u (readString opening used rest)
        | .error f => .error f
      else if c.toNat ≤ 0x1F then fault .controlCharacter (c :: rest)
      else consUnit (.char c) (readString opening 0 rest)

def digitsValue (ds : Text) : Nat := ds.foldl (fun n c => n * 10 + (c.toNat - 48)) 0

-- The nearest binary number. Far outside the range the answer is known without
-- computing the power of ten.
def nearestFloat (coefficient : Nat) (exponent : Int) : Float :=
  if coefficient == 0 then 0.0
  else
    let size : Int := (Text.ofNat coefficient).length + exponent
    if 310 < size then 1.0 / 0.0
    else if size < -330 then 0.0
    else if exponent < 0 then Float.ofScientific coefficient true exponent.natAbs
    else Float.ofScientific coefficient false exponent.natAbs

structure Numeral where
  negative : Bool
  whole : Text
  fraction : Text
  exponent : Option Int

def Numeral.real (n : Numeral) : Float :=
  let size := nearestFloat (digitsValue (n.whole ++ n.fraction))
    (n.exponent.getD 0 - n.fraction.length)
  if n.negative then -size else size

def integerDigitLimit : Nat := 4300

def spanDigits (t : Text) : Text × Text := (t.takeWhile Text.isDigit, t.dropWhile Text.isDigit)

def readWhole : Text → Option (Text × Text)
  | '0' :: rest => some (['0'], rest)
  | c :: rest => if Text.isDigit c then some (spanDigits (c :: rest)) else none
  | [] => none

def readFraction : Text → Text × Text
  | '.' :: rest => match spanDigits rest with
    | ([], _) => ([], '.' :: rest)
    | (ds, more) => (ds, more)
  | t => ([], t)

def readExponentDigits (negative : Bool) (t : Text) : Option (Int × Text) :=
  match spanDigits t with
  | ([], _) => none
  | (ds, more) =>
    let n : Int := digitsValue ds
    some (if negative then -n else n, more)

def readExponent (t : Text) : Option (Int × Text) :=
  match t with
  | [] => none
  | c :: rest =>
    if c == 'e' || c == 'E' then
      match rest with
      | '-' :: more => readExponentDigits true more
      | '+' :: more => readExponentDigits false more
      | more => readExponentDigits false more
    else none

def readNumber (t : Text) : Read Json :=
  let negative := t.head? == some '-'
  let body := if negative then t.drop 1 else t
  match readWhole body with
  | none => fault .valueExpected t
  | some (whole, afterWhole) =>
    let (fraction, afterFraction) := readFraction afterWhole
    match readExponent afterFraction with
    | some (e, rest) => .ok (.real (Numeral.real ⟨negative, whole, fraction, some e⟩), rest)
    | none =>
      if fraction.isEmpty then
        if integerDigitLimit < whole.length then fault (.integerTooLong whole.length) t
        else
          let n : Int := digitsValue whole
          .ok (.int (if negative then -n else n), afterFraction)
      else .ok (.real (Numeral.real ⟨negative, whole, fraction, none⟩), afterFraction)

def words : List (Text × Json) := [
  ("null".toList, .null), ("true".toList, .bool true), ("false".toList, .bool false),
  ("NaN".toList, .real (0.0 / 0.0)), ("Infinity".toList, .real (1.0 / 0.0)),
  ("-Infinity".toList, .real (-1.0 / 0.0))]

def readWord (t : Text) : Option (Json × Text) :=
  (words.find? fun w => w.1.isPrefixOf t).map fun w => (w.2, t.drop w.1.length)

-- No character is entered by more than two calls, so fuel of twice the length is enough.
-- The depth counts the collections that are open. How many may stand inside one another
-- depends on the machine; one too many is refused at its opening mark.
mutual
def readValue (limit : Nat) : Nat → Nat → Text → Read Json
  | 0, _, t => fault .valueExpected t
  | fuel + 1, depth, t =>
    match t with
    | '\x22' :: rest =>
      match readString t 0 rest with
      | .ok (units, more) => .ok (ofSpelling units, more)
      | .error f => .error f
    | '[' :: rest =>
      if limit ≤ depth then fault .nestedTooDeeply t
      else match skipSpace rest with
      | ']' :: more => .ok (.arr [], more)
      | start =>
        match readItems limit fuel (depth + 1) start with
        | .ok (items, more) => .ok (.arr items, more)
        | .error f => .error f
    | '\x7b' :: rest =>
      if limit ≤ depth then fault .nestedTooDeeply t
      else match skipSpace rest with
      | '\x7d' :: more => .ok (.obj [], more)
      | start =>
        match readMembers limit fuel (depth + 1) start with
        | .ok (members, more) => .ok (.obj (ofMembers members), more)
        | .error f => .error f
    | _ =>
      match readWord t with
      | some r => .ok r
      | none => readNumber t

def readItems (limit : Nat) : Nat → Nat → Text → Read (List Json)
  | 0, _, t => fault .valueExpected t
  | fuel + 1, depth, t =>
    match readValue limit fuel depth t with
    | .error f => .error f
    | .ok (v, rest) =>
      match skipSpace rest with
      | ']' :: more => .ok ([v], more)
      | ',' :: more =>
        match readItems limit fuel depth (skipSpace more) with
        | .ok (vs, final) => .ok (v :: vs, final)
        | .error f => .error f
      | other => fault .commaExpected other

def readMembers (limit : Nat) : Nat → Nat → Text → Read (List (Spelling × Json))
  | 0, _, t => fault .nameExpected t
  | fuel + 1, depth, t =>
    match t with
    | '\x22' :: inner =>
      match readString t 0 inner with
      | .error f => .error f
      | .ok (key, afterKey) =>
        match skipSpace afterKey with
        | ':' :: beforeValue =>
          match readValue limit fuel depth (skipSpace beforeValue) with
          | .error f => .error f
          | .ok (v, rest) =>
            match skipSpace rest with
            | '\x7d' :: more => .ok ([(key, v)], more)
            | ',' :: more =>
              match readMembers limit fuel depth (skipSpace more) with
              | .ok (ms, final) => .ok ((key, v) :: ms, final)
              | .error f => .error f
            | other => fault .commaExpected other
        | other => fault .colonExpected other
    | other => fault .nameExpected other
end

def byteOrderMark : Char := '\uFEFF'

def read (limit : Nat) (t : Text) : Except Fault Json :=
  if t.head? == some byteOrderMark then fault .byteOrderMark t
  else match readValue limit (2 * t.length + 2) 0 (skipSpace t) with
    | .error f => .error f
    | .ok (v, rest) =>
      match skipSpace rest with
      | [] => .ok v
      | other => fault .extraData other

def Cause.describe : Cause → Text
  | .valueExpected => "Expecting value".toList
  | .extraData => "Extra data".toList
  | .nameExpected => "Expecting property name enclosed in double quotes".toList
  | .colonExpected => "Expecting ':' delimiter".toList
  | .commaExpected => "Expecting ',' delimiter".toList
  | .unterminated => "Unterminated string starting at".toList
  | .controlCharacter => "Invalid control character at".toList
  | .unknownEscape => "Invalid \\escape".toList
  | .brokenUnicodeEscape => "Invalid \\uXXXX escape".toList
  | .byteOrderMark => "Unexpected UTF-8 BOM (decode using utf-8-sig)".toList
  | .integerTooLong digits =>
    "Exceeds the limit (4300 digits) for integer string conversion: value has ".toList ++
      Text.ofNat digits ++
      " digits; use sys.set_int_max_str_digits() to increase the limit".toList
  | .nestedTooDeeply => "Nested too deeply".toList

def Cause.isSyntactic : Cause → Bool
  | .integerTooLong _ | .nestedTooDeeply => false
  | _ => true

-- Lines count from one, columns from one, offsets from zero.
def Fault.message (f : Fault) (document : Text) : Text :=
  if f.cause.isSyntactic then
    let offset := document.length - f.unread
    let before := document.take offset
    let line := before.count '\n' + 1
    let column := (before.reverse.takeWhile (· != '\n')).length + 1
    f.cause.describe ++ ": line ".toList ++ Text.ofNat line ++ " column ".toList ++
      Text.ofNat column ++ " (char ".toList ++ Text.ofNat offset ++ ")".toList
  else f.cause.describe

end Json
end OperatorCalculus
