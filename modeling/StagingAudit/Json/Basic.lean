/-!
# JSON values

JSON as data. Objects keep the order of their members, because the order is part of what is
written; numbers are decimals, so that a whole number and the same number with a fraction of zeros
are told apart.
-/

namespace StagingAudit

/-- A JSON value. -/
inductive Json where
  /-- nothing -/
  | null
  /-- a truth value -/
  | bool (b : Bool)
  /-- the decimal `mantissa / 10 ^ places` -/
  | number (mantissa : Int) (places : Nat)
  /-- a text -/
  | string (s : String)
  /-- a list -/
  | array (items : List Json)
  /-- named members in order -/
  | object (members : List (String × Json))
  deriving Inhabited, Repr

namespace Json

/-- A natural number. -/
def nat (n : Nat) : Json := number n 0

/-- A value that may be missing. -/
def ofOption {α : Type} (f : α → Json) : Option α → Json
  | some a => f a
  | none => null

/-! ## Readers for the shapes that records are made of -/

/-- The text, if the value is one. -/
def string? : Json → Option String
  | string s => some s
  | _ => none

/-- The truth value, if the value is one. -/
def bool? : Json → Option Bool
  | bool b => some b
  | _ => none

/-- The number, if the value is a whole one between zero and the greatest 64-bit word. -/
def word64? : Json → Option Nat
  | number (.ofNat n) 0 => if n < 0x10000000000000000 then some n else none
  | _ => none

/-- The items, each read by `f`, if the value is a list. -/
def array? {α : Type} (f : Json → Option α) : Json → Option (List α)
  | array items => items.mapM f
  | _ => none

/-- Reads `null` as nothing and anything else by `f`. -/
def nullable? {α : Type} (f : Json → Option α) : Json → Option (Option α)
  | null => some none
  | j => (f j).map some

/-- A record's values in the order of its fields. A record is written as an object, whose unknown
members do not count, or as a list of its values, which may stop early but not run on. -/
def fields? (names : List String) : Json → Option (List (Option Json))
  | object members => some (names.map fun n => members.lookup n)
  | array items =>
    if items.length ≤ names.length then
      some (items.map some ++ List.replicate (names.length - items.length) none)
    else none
  | _ => none

end Json

end StagingAudit
