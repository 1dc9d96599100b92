/-!
# Tables with open addressing

A set of keys in numbered slots. Where a key goes is decided by its hash: into the first free slot
after the one that the hash names, in runs of sixteen that start farther and farther away. The
number of slots is a power of two. A table with no room for one more key first moves to twice as
many slots, key by key in the order of the old ones.

The order of the slots is the order in which the keys are gone through. It depends on nothing but
the keys and the order in which they came.
-/

namespace StagingAudit

/-- The hash of a key: FNV-1a with 64 bits, over the length in eight bytes and the bytes. -/
def keyHash (key : List UInt8) : UInt64 :=
  let length := (List.range 8).map fun i => (key.length / Nat.pow 256 i).toUInt8
  (length ++ key).foldl (fun h b => (h ^^^ b.toUInt64) * 0x100000001b3) 0xcbf29ce484222325

/-- Some keys in slots. -/
structure SlotTable where
  /-- the slots, `none` for a free one -/
  slots : Array (Option (List UInt8)) := #[]
  deriving Repr

namespace SlotTable

/-- The keys of a table, in the order of the slots. -/
def keys (t : SlotTable) : List (List UInt8) := t.slots.toList.filterMap id

/-- A table with only free slots. -/
def blank (size : Nat) : SlotTable := { slots := Array.replicate size none }

/-- How many keys a table takes: an eighth of its slots stay free, and at least one. -/
def capacity (size : Nat) : Nat := if size < 8 then size - 1 else size / 8 * 7

/-- How many slots there are in a run. -/
def runLength : Nat := 16

/-- The first free slot after the one that a hash names: the runs start one, three, six and so on
times their length away. -/
def freeSlot? (t : SlotTable) (hash : UInt64) : Option Nat :=
  (List.range (t.slots.size / runLength + 1)).findSome? fun i =>
    let start := hash.toNat + runLength * (i * (i + 1) / 2)
    ((List.range runLength).map fun j => (start + j) % t.slots.size).find? fun slot =>
      t.slots[slot]? = some none

/-- Puts a new key into the first free slot. -/
def place (t : SlotTable) (key : List UInt8) : SlotTable :=
  match t.freeSlot? (keyHash key) with
  | some slot => { slots := t.slots.setIfInBounds slot (some key) }
  | none => t

/-- The table with twice as many slots, four at least. -/
def grow (t : SlotTable) : SlotTable := t.keys.foldl place (blank (max 4 (2 * t.slots.size)))

/-- Adds a key, unless it is there. -/
def insert (t : SlotTable) (key : List UInt8) : SlotTable :=
  if t.slots.contains (some key) then t
  else if t.slots.countP Option.isSome < capacity t.slots.size then t.place key
  else t.grow.place key

/-- The table of some keys, which come one after the other. -/
def ofKeys (keys : List (List UInt8)) : SlotTable := keys.foldl insert {}

end SlotTable

end StagingAudit
