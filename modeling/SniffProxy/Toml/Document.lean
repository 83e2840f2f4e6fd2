import SniffProxy.Toml.Scalar

/-!
# TOML documents

A document is a sequence of lines: assignments and table headers, each followed by a comment at
most. `Document.parse` answers the entries of the document, or nothing if it is not TOML.
-/

namespace SniffProxy.Toml

/-! ## Values -/

/-- The items of an array, up to its bracket. -/
def readItems (item : List Char → Option (Value × List Char)) :
    (fuel : Nat) → List Char → Option (List Value × List Char)
  | 0, _ => none
  | fuel + 1, cs =>
    match skipLines false cs with
    | ']' :: rest => some ([], rest)
    | cs =>
      match item cs with
      | none => none
      | some (value, rest) =>
        match skipLines false rest with
        | ']' :: rest => some ([value], rest)
        | ',' :: rest =>
          (readItems item fuel rest).map fun (values, rest) => (value :: values, rest)
        | _ => none

/-- A value with the dotted key it belongs to. -/
structure Assignment where
  path : List String
  key : String
  value : Value

/-- An assignment, with the gap behind it. -/
def readAssignment (item : List Char → Option (Value × List Char)) (cs : List Char) :
    Option (Assignment × List Char) :=
  match readKey cs with
  | some (parts, '=' :: rest) =>
    match parts.getLast?, item (skipGaps rest) with
    | some key, some (value, rest) => some (⟨parts.dropLast, key, value⟩, skipGaps rest)
    | _, _ => none
  | _ => none

/-- Carries out an assignment. -/
def Assignment.apply (a : Assignment) (entries : Entries) : Option Entries :=
  entries.assign a.key a.value a.path

/-- The assignments between braces, up to the closing one. -/
def readPairs (item : List Char → Option (Value × List Char)) :
    (fuel : Nat) → Entries → List Char → Option (Entries × List Char)
  | 0, _, _ => none
  | fuel + 1, entries, cs =>
    match readAssignment item cs with
    | none => none
    | some (a, rest) =>
      match a.apply entries, rest with
      | some entries, c :: rest =>
        if c = Char.ofNat 0x7d then some (entries, rest)
        else if c = ',' then readPairs item fuel entries rest
        else none
      | _, _ => none

/-- The inside of a table between braces. -/
def readInline (item : List Char → Option (Value × List Char)) (cs : List Char) :
    Option (Entries × List Char) :=
  match skipGaps cs with
  | [] => none
  | c :: rest => if c = Char.ofNat 0x7d then some ([], rest) else readPairs item cs.length [] cs

/-- A value in which arrays and braces nest at most this deep. -/
def readValue : (depth : Nat) → List Char → Option (Value × List Char)
  | 0, cs => readScalar cs
  | depth + 1, cs =>
    match cs with
    | [] => none
    | c :: rest =>
      if c = '[' then
        (readItems (readValue depth) rest.length rest).map fun (items, rest) => (.array items, rest)
      else if c = Char.ofNat 0x7b then
        (readInline (readValue depth) rest).map fun (entries, rest) =>
          (.table .inline entries, rest)
      else readScalar cs

/-! ## Lines -/

/-- What a line says. -/
inductive Statement where
  | assignment (a : Assignment)
  | table (path : List String)
  | listed (path : List String)

/-- The text behind the rest of a line that says nothing more. -/
def endLine (cs : List Char) : Option (List Char) :=
  let rest :=
    match skipGaps cs with
    | '#' :: rest => rest.dropWhile isPlain
    | rest => rest
  if rest = [] then some [] else lineEnd? rest

/-- What the next line says. -/
def readStatement (cs : List Char) : Option (Statement × List Char) :=
  match skipGaps cs with
  | '[' :: '[' :: rest =>
    match readKey rest with
    | some (path, ']' :: ']' :: rest) => some (.listed path, rest)
    | _ => none
  | '[' :: rest =>
    match readKey rest with
    | some (path, ']' :: rest) => some (.table path, rest)
    | _ => none
  | rest =>
    (readAssignment (readValue (depthLimit - 1)) rest).map fun (a, rest) => (.assignment a, rest)

/-- What the lines of a document say. -/
def readStatements : (fuel : Nat) → List Char → Option (List Statement)
  | 0, cs => if cs = [] then some [] else none
  | fuel + 1, cs =>
    if cs = [] then some []
    else
      match endLine cs with
      | some rest => readStatements fuel rest
      | none =>
        match readStatement cs with
        | none => none
        | some (statement, rest) =>
          match endLine rest with
          | some rest => (readStatements fuel rest).map (statement :: ·)
          | none => none

/-! ## Documents -/

/-- The entries read so far, and the table that the next assignment goes to. -/
structure Draft where
  entries : Entries
  place : List String

/-- Carries out what a line says. -/
def Draft.step (draft : Draft) : Statement → Option Draft
  | .assignment a =>
    (draft.entries.descend a.apply draft.place).map fun entries => ⟨entries, draft.place⟩
  | .table path => (draft.entries.openTable path).map fun entries => ⟨entries, path⟩
  | .listed path => (draft.entries.openListed path).map fun entries => ⟨entries, path⟩

/-- The text without a byte order mark. -/
def dropByteOrderMark : List Char → List Char
  | [] => []
  | c :: rest => if c.toNat = 0xfeff then rest else c :: rest

/-- The entries of a document. -/
def parse (text : String) : Option Entries :=
  let cs := dropByteOrderMark text.toList
  match readStatements cs.length cs with
  | none => none
  | some statements =>
    match statements.foldlM Draft.step ⟨[], []⟩ with
    | some draft => some draft.entries
    | none => none

end SniffProxy.Toml
