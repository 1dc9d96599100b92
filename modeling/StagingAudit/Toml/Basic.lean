/-!
# TOML values

TOML as data. A table remembers how it came to be, because that decides whether a later line of
the document may add to it. A date or time is kept as its canonical text, and of a decimal number
only the fact that it is one, since no setting is either of them.
-/

namespace StagingAudit

/-- How a table came to be. -/
inductive TableOrigin where
  /-- it is written between braces, and complete -/
  | inline
  /-- it has a header of its own -/
  | header
  /-- only headers of tables below it mention it -/
  | implied
  /-- dotted keys mention it -/
  | dotted
  deriving DecidableEq, Repr

/-- A TOML value. -/
inductive Toml where
  /-- a text -/
  | string (s : String)
  /-- a whole number -/
  | integer (n : Int)
  /-- a decimal number, infinity or no number -/
  | float
  /-- a truth value -/
  | boolean (b : Bool)
  /-- a date, a time or both, as canonical text -/
  | moment (text : String)
  /-- a list between brackets -/
  | array (items : List Toml)
  /-- the tables under a repeated header, in order -/
  | tables (items : List Toml)
  /-- a table -/
  | table (origin : TableOrigin) (entries : List (String × Toml))

namespace Toml

/-- A reader takes what it knows off the front of a text and hands back the rest. -/
abbrev Reader (α : Type) := List Char → Option (α × List Char)

/-- The greatest nesting of lists and tables between braces, and the greatest number of parts of a
key; both stay below it. -/
def maxDepth : Nat := 80

end Toml

end StagingAudit
