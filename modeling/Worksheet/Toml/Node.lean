/-
The tree of a TOML document.

A document is a table of tables, arrays and plain values.  Whether a table may still
be extended depends on how it came to be, so every table remembers its origin: a
table written in braces is complete, one named by a header cannot be named again,
and one that only arose as part of a longer name may still be extended in the way it
arose.

* `insertAt` — changes the table at the end of a path;
* `Entries.assign` — what `a.b.c = value` does to a table;
* `Entries.openTable`, `Entries.openElement` — what the headers `[a.b]` and
  `[[a.b]]` do to the root.
-/

namespace Worksheet.Toml

/-- How a table came to be. -/
inductive Origin where
  /-- Written in braces. -/
  | inline
  /-- Named by a header, or the root. -/
  | header
  /-- Part of the name in a longer header. -/
  | implied
  /-- Part of a dotted key. -/
  | dotted
  deriving DecidableEq, Repr

/-- A value, table or array of tables in a document. -/
inductive Node where
  | text (content : String)
  | integer (value : Int)
  | float (value : Float)
  | boolean (value : Bool)
  /-- A date, a time of day, or both; its parts are of no use here. -/
  | dateTime
  | array (items : List Node)
  | table (origin : Origin) (entries : List (String × Node))
  /-- The tables of an array that headers build up, the latest first. -/
  | tables (items : List (List (String × Node)))

/-- The entries of a table, in no particular order. -/
abbrev Entries : Type :=
  List (String × Node)

namespace Entries

/-- The entries with another value for a key. -/
def replace (key : String) (node : Node) (es : Entries) : Entries :=
  es.map fun entry => if entry.1 = key then (key, node) else entry

/-- The entries with one more, unless the key is taken. -/
def add? (key : String) (node : Node) (es : Entries) : Option Entries :=
  match es.lookup key with
  | none => some (es ++ [(key, node)])
  | some _ => none

end Entries

/-- Changes the table at the end of a path; tables on the way that do not exist are
made up with the given origin.  Keys pass neither through plain values nor through
tables in braces, and those of dotted keys not through a table named by a header. -/
def insertAt (made : Origin) (change : Origin → Entries → Option Entries) :
    List String → Origin → Entries → Option Entries
  | [], origin, es => change origin es
  | key :: path, _, es =>
    match es.lookup key with
    | none => do
      let inner ← insertAt made change path made []
      some (es ++ [(key, .table made inner)])
    | some (.table origin inner) =>
      if origin = .inline ∨ (made = .dotted ∧ origin = .header) then none
      else do
        let inner ← insertAt made change path origin inner
        some (es.replace key (.table origin inner))
    | some (.tables (latest :: earlier)) => do
      let latest ← insertAt made change path .header latest
      some (es.replace key (.tables (latest :: earlier)))
    | some _ => none

/-- The last part of a dotted key and the parts before it. -/
def splitLast? (parts : List String) : Option (List String × String) :=
  parts.getLast?.map (parts.dropLast, ·)

namespace Entries

/-- Assigns a value to a dotted key.  Tables that arose otherwise than from a dotted
key are not extended by one. -/
def assign (parts : List String) (value : Node) (es : Entries) : Option Entries := do
  let (path, key) ← splitLast? parts
  insertAt .dotted
    (fun origin es =>
      if !path.isEmpty && origin != .dotted then none else es.add? key value)
    path .header es

/-- Opens the table that a header names. -/
def openTable (parts : List String) (root : Entries) : Option Entries := do
  let (path, key) ← splitLast? parts
  insertAt .implied
    (fun _ es =>
      match es.lookup key with
      | none => some (es ++ [(key, .table .header [])])
      | some (.table .implied inner) => some (es.replace key (.table .header inner))
      | some _ => none)
    path .header root

/-- Opens a further table of the array that a header names. -/
def openElement (parts : List String) (root : Entries) : Option Entries := do
  let (path, key) ← splitLast? parts
  insertAt .implied
    (fun _ es =>
      match es.lookup key with
      | none => some (es ++ [(key, .tables [[]])])
      | some (.tables items) => some (es.replace key (.tables ([] :: items)))
      | some _ => none)
    path .header root

/-- Assigns a value to a dotted key in the table that the last header named. -/
def assignIn (header : List String) (parts : List String) (value : Node) (root : Entries) :
    Option Entries :=
  insertAt .implied (fun _ es => es.assign parts value) header .header root

end Entries

end Worksheet.Toml
