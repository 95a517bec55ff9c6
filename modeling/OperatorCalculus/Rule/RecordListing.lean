import OperatorCalculus.Rule.Listing
import OperatorCalculus.Rule.Record

-- The same listing over records. A query can only be looked for in texts, and a
-- category that is itself a collection can not head a group.
namespace OperatorCalculus

inductive ListingFault where
  | notText
  | notAHeading
deriving DecidableEq, Repr

namespace Json

-- Truth values count as the numbers zero and one when values are compared as headings.
def headingNumber? : Json → Option Decimal.Value
  | .bool b => some (.finite false ⟨if b then 1 else 0, 0, false⟩)
  | .int n => some (.finite (decide (n < 0)) ⟨n.natAbs, 0, false⟩)
  | .real x => some (.ofFloat x)
  | _ => none

def sameSize (a b : Decimal.Magnitude) : Bool :=
  let low := min a.exponent b.exponent
  a.mantissa * Nat.pow 2 (a.exponent - low).toNat ==
    b.mantissa * Nat.pow 2 (b.exponent - low).toNat

def sameNumber : Decimal.Value → Decimal.Value → Bool
  | .finite s a, .finite t b => sameSize a b && (s == t || a.mantissa == 0)
  | .infinite s, .infinite t => s == t
  | .undefined, .undefined => true
  | _, _ => false

def sameHeading (a b : Json) : Bool :=
  match headingNumber? a, headingNumber? b with
  | some x, some y => sameNumber x y
  | none, none =>
    match a, b with
    | .null, .null => true
    | .str s, .str t => s == t
    | .torn s, .torn t => s == t
    | _, _ => false
  | _, _ => false

def canHead : Json → Bool
  | .arr _ => false
  | .obj _ => false
  | _ => true

end Json

structure Heading where
  value : Json

instance : BEq Heading := ⟨fun a b => Json.sameHeading a.value b.value⟩

namespace RecordListing

def agrees (wanted : Option Text) (value : Json) : Bool :=
  match Filter.demands wanted with
  | none => true
  | some w => Json.isText w value

def anyMentions (query : Text) : List Json → Except ListingFault Bool
  | [] => .ok false
  | v :: rest =>
    match v.stretches? with
    | some ts => if ts.any (Filter.mentions query) then .ok true else anyMentions query rest
    | none => .error .notText

def admits (f : Filter) (r : Record) : Except ListingFault Bool :=
  if Filter.agrees f.type r.type && agrees f.category r.category then
    if f.query.isEmpty then .ok true
    else anyMentions f.query [r.name, r.description, r.left, r.right]
  else .ok false

def search (f : Filter) : List Record → Except ListingFault (List Record)
  | [] => .ok []
  | r :: rest => do
    let wanted ← admits f r
    let more ← search f rest
    return if wanted then r :: more else more

def group (records : List Record) : Except ListingFault (Listing.Groups Heading Text Record) :=
  if records.all fun r => r.category.canHead then
    .ok (Listing.groupBy (fun r => ⟨r.category⟩) Record.type records)
  else .error .notAHeading

def counts (records : List Record) : List (Text × Nat) :=
  Listing.countTypes (records.map Record.type)

end RecordListing
end OperatorCalculus
