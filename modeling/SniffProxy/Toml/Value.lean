/-!
# TOML values

The values of a TOML document, with what decides whether a later line may still add to a table.

* `Entries.assign` — puts a value below a path of dotted keys.
* `Entries.openTable`, `Entries.openListed` — what the headers `[path]` and `[[path]]` do.

All three answer nothing where the document would define something twice.
-/

namespace SniffProxy.Toml

/-- How a table came to be. -/
inductive TableOrigin where
  /-- A header of its own. -/
  | header
  /-- A step of a longer header. -/
  | implied
  /-- A step of dotted keys. -/
  | dotted
  /-- Braces; nothing can be added. -/
  | inline
  deriving DecidableEq, Repr

/-- A TOML value. Numbers with a fraction or an exponent and dates are kept as they are written. -/
inductive Value where
  | string (text : String)
  | integer (n : Int)
  | float (literal : String)
  | boolean (b : Bool)
  | date (literal : String)
  | array (items : List Value)
  | table (origin : TableOrigin) (entries : List (String × Value))
  /-- Tables under repeated headers `[[…]]`; only the last can be added to. -/
  | listed (earlier : List (List (String × Value))) (last : List (String × Value))

/-- The keys of a table with their values, in the order of their first mention. -/
abbrev Entries := List (String × Value)

namespace Entries

/-- The value of a key. -/
def get? (entries : Entries) (key : String) : Option Value :=
  (entries.find? fun entry => entry.1 = key).map fun entry => entry.2

/-- Replaces the value of a key, which keeps its place. -/
def set (entries : Entries) (key : String) (value : Value) : Entries :=
  entries.map fun entry => if entry.1 = key then (key, value) else entry

/-- The entries without a key. -/
def erase (entries : Entries) (key : String) : Entries :=
  entries.filter fun entry => entry.1 ≠ key

/-- Adds a key that is not there yet. -/
def insertNew (key : String) (value : Value) (entries : Entries) : Option Entries :=
  match entries.get? key with
  | none => some (entries ++ [(key, value)])
  | some _ => none

/-- Puts a value below a path of dotted keys. The path may pass through tables without a header of
their own and through the last of listed tables; the table it ends in must be made by dotted
keys. -/
def assign (key : String) (value : Value) : (path : List String) → Entries → Option Entries
  | [], entries => insertNew key value entries
  | step :: path, entries =>
    match entries.get? step with
    | none =>
      (assign key value path []).map fun inner => entries ++ [(step, .table .dotted inner)]
    | some (.table .dotted inner) =>
      (assign key value path inner).map fun inner => entries.set step (.table .dotted inner)
    | some (.table .implied inner) =>
      if path = [] then none
      else (assign key value path inner).map fun inner => entries.set step (.table .implied inner)
    | some (.listed earlier last) =>
      if path = [] then none
      else (assign key value path last).map fun last => entries.set step (.listed earlier last)
    | some _ => none

/-- Changes the table at the end of a path of headers. Steps that are missing become implied
tables. -/
def descend (change : Entries → Option Entries) : (path : List String) → Entries → Option Entries
  | [], entries => change entries
  | step :: path, entries =>
    match entries.get? step with
    | none =>
      (descend change path []).map fun inner => entries ++ [(step, .table .implied inner)]
    | some (.table origin inner) =>
      if origin = .inline then none
      else (descend change path inner).map fun inner => entries.set step (.table origin inner)
    | some (.listed earlier last) =>
      (descend change path last).map fun last => entries.set step (.listed earlier last)
    | some _ => none

/-- Gives a table a header of its own. An implied table moves to the end. -/
def defineTable (key : String) (entries : Entries) : Option Entries :=
  match entries.get? key with
  | none => some (entries ++ [(key, .table .header [])])
  | some (.table .implied inner) => some (entries.erase key ++ [(key, .table .header inner)])
  | some _ => none

/-- Starts the next of listed tables. -/
def defineListed (key : String) (entries : Entries) : Option Entries :=
  match entries.get? key with
  | none => some (entries ++ [(key, .listed [] [])])
  | some (.listed earlier last) => some (entries.set key (.listed (earlier ++ [last]) []))
  | some _ => none

/-- What the header `[path]` does. -/
def openTable (path : List String) (entries : Entries) : Option Entries :=
  match path.getLast? with
  | none => none
  | some key => descend (defineTable key) path.dropLast entries

/-- What the header `[[path]]` does. -/
def openListed (path : List String) (entries : Entries) : Option Entries :=
  match path.getLast? with
  | none => none
  | some key => descend (defineListed key) path.dropLast entries

end Entries

end SniffProxy.Toml
