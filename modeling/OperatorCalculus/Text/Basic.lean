-- Text is a finite sequence of code points. Positions, lengths and slices count
-- code points; no byte or display column is meant anywhere in this library.
namespace OperatorCalculus

abbrev Text := List Char

namespace Text

-- The blanks are the separators of the character standard together with the
-- control characters 09-0D, 1C-1F and 85. Trimming and splitting use this set only.
def isBlank (c : Char) : Bool :=
  let n := c.toNat
  (9 ≤ n && n ≤ 13) || (28 ≤ n && n ≤ 32) || n == 0x85 || n == 0xA0 || n == 0x1680 ||
    (0x2000 ≤ n && n ≤ 0x200A) || n == 0x2028 || n == 0x2029 || n == 0x202F || n == 0x205F ||
    n == 0x3000

-- The classes of the operator notation know the basic alphabet alone.
def isDigit (c : Char) : Bool := '0' ≤ c && c ≤ '9'
def isLower (c : Char) : Bool := 'a' ≤ c && c ≤ 'z'
def isUpper (c : Char) : Bool := 'A' ≤ c && c ≤ 'Z'
def isLetter (c : Char) : Bool := isLower c || isUpper c
def isWord (c : Char) : Bool := isLetter c || isDigit c || c == '_'

def allBlank (t : Text) : Bool := t.all isBlank

def trimLeft (t : Text) : Text := t.dropWhile isBlank
def trimRight (t : Text) : Text := (t.reverse.dropWhile isBlank).reverse
def trim (t : Text) : Text := trimRight (trimLeft t)

-- Every offset at which the part stands, in order; occurrences may overlap.
-- The empty part stands before each character and at the end.
def occurrences (part : Text) : Text → List Nat
  | [] => if part.isEmpty then [0] else []
  | c :: rest =>
    let later := (occurrences part rest).map (· + 1)
    if part.isPrefixOf (c :: rest) then 0 :: later else later

def find? (part : Text) : Text → Option Nat
  | [] => if part.isEmpty then some 0 else none
  | c :: rest =>
    if part.isPrefixOf (c :: rest) then some 0 else (find? part rest).map (· + 1)

def contains (part t : Text) : Bool := (find? part t).isSome

def findLast? (part : Text) : Text → Option Nat
  | [] => if part.isEmpty then some 0 else none
  | c :: rest =>
    match findLast? part rest with
    | some i => some (i + 1)
    | none => if part.isPrefixOf (c :: rest) then some 0 else none

def splitOn (sep : Char) : Text → List Text
  | [] => [[]]
  | c :: rest =>
    if c == sep then [] :: splitOn sep rest
    else match splitOn sep rest with
      | [] => [[c]]
      | piece :: more => (c :: piece) :: more

def join (sep : Text) : List Text → Text
  | [] => []
  | [t] => t
  | t :: more => t ++ sep ++ join sep more

def lines (t : Text) : List Text := splitOn '\n' t

def unlines (ls : List Text) : Text := ls.flatMap (· ++ ['\n'])

def replaceChar (c : Char) (image t : Text) : Text :=
  t.flatMap fun d => if d == c then image else [d]

def unifyLineEnds : Text → Text
  | [] => []
  | '\r' :: '\n' :: rest => '\n' :: unifyLineEnds rest
  | c :: rest => (if c == '\r' then '\n' else c) :: unifyLineEnds rest

def ofNat (n : Nat) : Text := Nat.toDigits 10 n

def ofInt : Int → Text
  | .ofNat n => ofNat n
  | .negSucc n => '-' :: ofNat (n + 1)

def le : Text → Text → Bool
  | [], _ => true
  | _ :: _, [] => false
  | a :: s, b :: t => if a == b then le s t else a.toNat ≤ b.toNat

theorem splitOn_ne_nil (sep : Char) (t : Text) : splitOn sep t ≠ [] := by
  cases t with
  | nil => simp [splitOn]
  | cons c rest =>
    simp only [splitOn]
    split
    · simp
    · split <;> simp

end Text
end OperatorCalculus
