import ReportTemplate.Number.Binary64

/-!
# ReportTemplate.Toml — settings as they are written in a file

A file in TOML gives values to keys.  A table that dotted keys have made is open and further dotted
keys may add to it; every other table is closed, and no key is set twice.
-/

namespace ReportTemplate.Toml

inductive Value where
  | string (text : String)
  | boolean (b : Bool)
  | integer (n : Int)
  | float (x : Number.Binary64)
  /-- A date, a time, or both, as they are written. -/
  | dateTime (text : String)
  | array (items : List Value)
  | table (isOpen : Bool) (fields : List (String × Value))

/-- Keys and their values in the order of the file. -/
abbrev Fields := List (String × Value)

/-- Sets a dotted key, given by its parts, that has not been set. -/
def insert? (v : Value) : List String → Fields → Option Fields
  | [], _ => none
  | [k], fields => if (fields.lookup k).isSome then none else some (fields ++ [(k, v)])
  | k :: l :: ks, fields =>
    match fields.lookup k with
    | none => do
      let inner ← insert? v (l :: ks) []
      some (fields ++ [(k, .table true inner)])
    | some (.table true inner) => do
      let inner ← insert? v (l :: ks) inner
      some (fields.map fun f => if f.1 = k then (k, .table true inner) else f)
    | some _ => none

/-- A line of a file, or several lines when a value goes on. -/
inductive Statement where
  /-- The settings that follow belong to this table. -/
  | header (name : String)
  | setting (key : List String) (v : Value)

/-- A file that has been read up to some line. -/
structure Draft where
  done : Fields := []
  /-- The table that the last header has opened. -/
  current : Option (String × Fields) := none

namespace Draft

/-- The tables so far, the current one closed. -/
def close (d : Draft) : Fields :=
  match d.current with
  | none => d.done
  | some (name, fields) => d.done ++ [(name, .table false fields)]

/-- The draft with one statement more, unless it sets something again. -/
def add? (d : Draft) : Statement → Option Draft
  | .header name =>
    if (d.close.lookup name).isSome then none else some ⟨d.close, some (name, [])⟩
  | .setting key v =>
    match d.current with
    | none => do return ⟨← insert? v key d.done, none⟩
    | some (name, fields) => do return ⟨d.done, some (name, ← insert? v key fields)⟩

end Draft

end ReportTemplate.Toml
