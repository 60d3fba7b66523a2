/-
Settings in a file.

Settings are kept in a TOML document with one entry for each of them; those that are
missing keep their initial value, and entries with other names are ignored.  Numbers
have bounds: the decimals are a number of 32 bits, the iterations one of 63.
-/
import Worksheet.Settings
import Worksheet.Toml.Document

namespace Worksheet

/-- Why settings cannot be read. -/
inductive SettingsError where
  /-- The file is missing or is not text. -/
  | unreadable
  /-- The text is not a document, or an entry is of the wrong kind. -/
  | malformed
  deriving DecidableEq, Repr

namespace Settings

open Toml (Node Entries)

/-- A natural number below a bound. -/
def natural? (bound : Nat) : Node → Option Nat
  | .integer n => if 0 ≤ n ∧ n < bound then some n.toNat else none
  | _ => none

/-- A truth value. -/
def boolean? : Node → Option Bool
  | .boolean b => some b
  | _ => none

/-- A text. -/
def text? : Node → Option String
  | .text s => some s
  | _ => none

/-- An entry of a document, read in a certain way, or else a value to fall back on. -/
def entry {α : Type} (es : Entries) (name : String) (read : Node → Option α) (fallback : α) :
    Option α :=
  match es.lookup name with
  | none => some fallback
  | some node => read node

/-- The settings in the entries of a document. -/
def ofEntries? (es : Entries) : Option Settings := do
  let decimals ← entry es "decimals" (natural? 0x100000000) initial.decimals
  let formatEquations ← entry es "format_equations" boolean? initial.formatEquations
  let units ← entry es "units" text? initial.units
  let maxIterations ← entry es "max_iterations" (natural? 0x8000000000000000) initial.maxIterations
  some { decimals, formatEquations, units, maxIterations }

/-- The settings in a text. -/
def ofText (source : String) : Except SettingsError Settings :=
  match (Toml.document? source).bind ofEntries? with
  | some settings => .ok settings
  | none => .error .malformed

/-- The settings in a file, given by its content if the file exists. -/
def ofFile (content : Option ByteArray) : Except SettingsError Settings :=
  match content.bind String.fromUTF8? with
  | some source => ofText source
  | none => .error .unreadable

end Settings

end Worksheet
