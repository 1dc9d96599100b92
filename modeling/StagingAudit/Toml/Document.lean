import StagingAudit.Toml.Number

/-!
# TOML documents

A document is a sequence of lines that assign a value to a key, open a table, or open one more
table under a repeated header. Reading has two steps: `statements?` takes the text apart, and
`Toml.enter` lets each statement add to the table so far or refuses it. What is refused is defining
anything twice: a key, a table with its own header, a table that dotted keys or braces have
defined.
-/

namespace StagingAudit

namespace Toml

/-- The entries of a table. -/
abbrev Entries := List (String × Toml)

/-- Entries with the value of a key changed. -/
def Entries.set (entries : Entries) (key : String) (value : Toml) : Entries :=
  entries.map fun (k, v) => if k = key then (k, value) else (k, v)

/-! ## Adding to tables -/

/-- Adds a value under a dotted key. The tables in between are new or have come from dotted keys;
a table that headers below it imply may be passed through but not added to. -/
def Entries.assign : List String → String → Toml → Entries → Option Entries
  | [], key, value, entries =>
    match entries.lookup key with
    | none => some (entries ++ [(key, value)])
    | some _ => none
  | k :: ks, key, value, entries =>
    match entries.lookup k with
    | none => (Entries.assign ks key value []).map fun sub => entries ++ [(k, .table .dotted sub)]
    | some (.table .dotted sub) =>
      (Entries.assign ks key value sub).map fun sub => entries.set k (.table .dotted sub)
    | some (.table .implied sub) =>
      if ks.isEmpty then none
      else (Entries.assign ks key value sub).map fun sub => entries.set k (.table .implied sub)
    | some (.tables items) =>
      match ks, items.getLast? with
      | _ :: _, some (.table origin sub) =>
        (Entries.assign ks key value sub).map fun sub =>
          entries.set k (.tables (items.dropLast ++ [.table origin sub]))
      | _, _ => none
    | some _ => none

/-- Changes the table at a path of headers. Tables on the way that do not exist are implied; a
repeated header stands for its last table. -/
def Entries.change (f : Entries → Option Entries) : List String → Entries → Option Entries
  | [], entries => f entries
  | k :: ks, entries =>
    match entries.lookup k with
    | none => (Entries.change f ks []).map fun sub => entries ++ [(k, .table .implied sub)]
    | some (.table .inline _) => none
    | some (.table origin sub) =>
      (Entries.change f ks sub).map fun sub => entries.set k (.table origin sub)
    | some (.tables items) =>
      match items.getLast? with
      | some (.table origin sub) =>
        (Entries.change f ks sub).map fun sub =>
          entries.set k (.tables (items.dropLast ++ [.table origin sub]))
      | _ => none
    | some _ => none

/-- Gives a table its header. An implied table becomes one with a header; any other that is
already there stays as it is, and the header is refused. -/
def Entries.openTable (key : String) (entries : Entries) : Option Entries :=
  match entries.lookup key with
  | none => some (entries ++ [(key, .table .header [])])
  | some (.table .implied sub) => some (entries.set key (.table .header sub))
  | some _ => none

/-- Adds a table under a repeated header. -/
def Entries.openItem (key : String) (entries : Entries) : Option Entries :=
  match entries.lookup key with
  | none => some (entries ++ [(key, .tables [.table .header []])])
  | some (.tables items) => some (entries.set key (.tables (items ++ [.table .header []])))
  | some _ => none

/-! ## Values -/

/-- A key and the equals sign after it. -/
def assignment? (cs : List Char) : Option (List String × List Char) := do
  let (key, rest) ← key? cs
  let rest ← Recogniser.literal ['='] rest
  return (key, skipBlanks rest)

/-- Adds a value under all parts of a key. -/
def Entries.assignKey (key : List String) (value : Toml) (entries : Entries) : Option Entries :=
  match key.getLast? with
  | some last => entries.assign key.dropLast last value
  | none => none

/-- A value that is neither a list nor a table. -/
def scalarValue? (cs : List Char) : Option (Toml × List Char) :=
  match cs with
  | 't' :: 'r' :: 'u' :: 'e' :: rest => some (.boolean true, rest)
  | 'f' :: 'a' :: 'l' :: 's' :: 'e' :: rest => some (.boolean false, rest)
  | _ =>
    match text? cs with
    | some (s, rest) => some (.string (String.ofList s), rest)
    | none =>
      match moment? cs with
      | some (m, rest) => some (.moment m, rest)
      | none =>
        match float? cs with
        | some rest => some (.float, rest)
        | none => (integer? cs).map fun (n, rest) => (.integer n, rest)

mutual

/-- A value. The first number bounds the steps, the second counts the brackets around it. -/
def valueUpTo : Nat → Nat → List Char → Option (Toml × List Char)
  | 0, _, _ => none
  | n + 1, depth, cs =>
    match cs with
    | '[' :: rest =>
      if depth + 1 < maxDepth then
        (itemsUpTo n (depth + 1) (skipTrivia false rest)).map fun (items, rest) =>
          (.array items, rest)
      else none
    | '\x7b' :: rest =>
      if depth + 1 < maxDepth then
        match skipBlanks rest with
        | '\x7d' :: rest => some (.table .inline [], rest)
        | _ =>
          (pairsUpTo n (depth + 1) [] rest).map fun (entries, rest) =>
            (.table .inline entries, rest)
      else none
    | _ => scalarValue? cs

/-- The items of a list from here on, and the bracket that closes it. -/
def itemsUpTo : Nat → Nat → List Char → Option (List Toml × List Char)
  | 0, _, _ => none
  | n + 1, depth, cs =>
    match cs with
    | ']' :: rest => some ([], rest)
    | _ => do
      let (item, rest) ← valueUpTo n depth cs
      match skipTrivia false rest with
      | ',' :: rest =>
        let (items, rest) ← itemsUpTo n depth (skipTrivia false rest)
        return (item :: items, rest)
      | ']' :: rest => return ([item], rest)
      | _ => none

/-- The pairs of a table between braces from here on, added to those before, and the brace that
closes it. -/
def pairsUpTo : Nat → Nat → Entries → List Char → Option (Entries × List Char)
  | 0, _, _, _ => none
  | n + 1, depth, entries, cs => do
    let (key, rest) ← assignment? cs
    let (value, rest) ← valueUpTo n depth rest
    let entries ← entries.assignKey key value
    match skipBlanks rest with
    | ',' :: rest => pairsUpTo n depth entries rest
    | '\x7d' :: rest => return (entries, rest)
    | _ => none

end

/-- A value. Every step but one in two takes a character, so there are enough of them. -/
def value? (cs : List Char) : Option (Toml × List Char) := valueUpTo (2 * cs.length + 2) 0 cs

/-! ## Statements -/

/-- A line of a document. -/
inductive Statement where
  /-- a key and its value -/
  | assign (key : List String) (value : Toml)
  /-- the header of a table -/
  | openTable (path : List String)
  /-- the header of one more table of a list -/
  | openItem (path : List String)

/-- The statement at the start of the text, and what is left after its line. -/
def statement? (cs : List Char) : Option (Statement × List Char) :=
  match cs with
  | '[' :: '[' :: rest => do
    let (path, rest) ← key? rest
    let rest ← Recogniser.literal [']', ']'] rest
    return (.openItem path, ← lineEnd rest)
  | '[' :: rest => do
    let (path, rest) ← key? rest
    let rest ← Recogniser.literal [']'] rest
    return (.openTable path, ← lineEnd rest)
  | _ => do
    let (key, rest) ← assignment? cs
    let (value, rest) ← value? rest
    return (.assign key value, ← lineEnd rest)

/-- The statements of a text, at most `n` of them. -/
def statementsUpTo : Nat → List Char → Option (List Statement)
  | 0, _ => none
  | n + 1, cs =>
    match skipTrivia false cs with
    | [] => some []
    | cs => do
      let (s, rest) ← statement? cs
      let more ← statementsUpTo n rest
      return s :: more

/-- The statements of a document. A byte order mark at its start does not count. -/
def statements? (cs : List Char) : Option (List Statement) :=
  let cs := if cs.head? = some (Char.ofNat 0xFEFF) then cs.tail else cs
  statementsUpTo (cs.length + 1) cs

/-! ## Documents -/

/-- The tables so far, and the path of the table that assignments add to. -/
structure Progress where
  /-- the outermost table -/
  root : Entries := []
  /-- the table that is open -/
  current : List String := []

/-- Lets a statement add to the document. -/
def enter (p : Progress) : Statement → Option Progress
  | .assign key value =>
    (Entries.change (·.assignKey key value) p.current p.root).map fun root => { p with root }
  | .openTable path =>
    match path.getLast? with
    | some key =>
      (Entries.change (·.openTable key) path.dropLast p.root).map fun root =>
        { root, current := path }
    | none => none
  | .openItem path =>
    match path.getLast? with
    | some key =>
      (Entries.change (·.openItem key) path.dropLast p.root).map fun root =>
        { root, current := path }
    | none => none

/-- The outermost table of a document. -/
def parse? (cs : List Char) : Option Entries := do
  let statements ← statements? cs
  let p ← statements.foldlM enter {}
  return p.root

end Toml

end StagingAudit
