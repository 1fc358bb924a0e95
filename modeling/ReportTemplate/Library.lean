import ReportTemplate.Document
import ReportTemplate.Value.Refusal

/-!
# ReportTemplate.Library — libraries and what is visible of them

A template can use what the libraries of its reference set offer.  The set holds every library that
some anchor library refers to, directly or through others, each once and in the order in which a
breadth-first walk meets it.
-/

namespace ReportTemplate

/-- A function that templates may call. -/
structure Function where
  name : String
  params : Nat
  call : List Value → Except Refusal Value

/-- A method of the document: its arguments become a block. -/
structure DocumentMethod where
  name : String
  params : Nat
  call : List Value → Except Refusal Block

namespace Function

/-- A function of one argument. -/
def unary (name : String) (f : Value → Except Refusal Value) : Function :=
  ⟨name, 1, fun
    | [a] => f a
    | _ => .error .argumentCount⟩

/-- A function of two arguments. -/
def binary (name : String) (f : Value → Value → Except Refusal Value) : Function :=
  ⟨name, 2, fun
    | [a, b] => f a b
    | _ => .error .argumentCount⟩

/-- A function of three arguments. -/
def ternary (name : String) (f : Value → Value → Value → Except Refusal Value) : Function :=
  ⟨name, 3, fun
    | [a, b, c] => f a b c
    | _ => .error .argumentCount⟩

end Function

/-- A named set of functions, types and document methods. -/
structure Library where
  name : String
  /-- The libraries that this one refers to. -/
  references : List String := []
  /-- The names of the types that it makes available. -/
  types : List String := []
  functions : List Function := []
  documentMethods : List DocumentMethod := []

/-- The libraries that are known. -/
structure Catalog where
  libraries : List Library

namespace Catalog

def get? (c : Catalog) (name : String) : Option Library := c.libraries.find? fun l => l.name = name

/-- The catalog with a library at its end, in place of one of the same name. -/
def withLibrary (c : Catalog) (l : Library) : Catalog :=
  ⟨c.libraries.filter (fun k => k.name ≠ l.name) ++ [l]⟩

end Catalog

/-- A name that no library of the catalog has. -/
inductive ReferenceError where
  | unknownLibrary (referrer name : String)
  | unknownAnchor (name : String)
deriving DecidableEq, Repr

def ReferenceError.message : ReferenceError → String
  | unknownLibrary referrer name =>
    "library '" ++ referrer ++ "' references unknown library '" ++ name ++ "'"
  | unknownAnchor name => "unknown anchor library '" ++ name ++ "'"

/-- The libraries that a template can use. -/
structure ReferenceSet where
  libraries : List Library

namespace ReferenceSet

/-- A reference still to be followed: who refers, and to what. -/
structure Reference where
  referrer : String
  name : String
deriving DecidableEq, Repr

/-- The references of a library. -/
def ofLibrary (l : Library) : List Reference := l.references.map fun name => ⟨l.name, name⟩

/-- The references of the anchors, which are libraries of the catalog. -/
def anchorReferences (c : Catalog) : List String → Except ReferenceError (List Reference)
  | [] => .ok []
  | anchor :: anchors =>
    match c.get? anchor with
    | none => .error (.unknownAnchor anchor)
    | some l =>
      match anchorReferences c anchors with
      | .error e => .error e
      | .ok queue => .ok (ofLibrary l ++ queue)

/-- Follows the references of a queue; `found` are the libraries met so far, the latest first.  Each
round meets a new library, so `budget` is never used up when the catalog has no more libraries. -/
def walk (c : Catalog) (budget : Nat) (found : List Library) (queue : List Reference) :
    Except ReferenceError (List Library) :=
  match queue.dropWhile fun r => found.any fun l => l.name = r.name with
  | [] => .ok found.reverse
  | r :: queue =>
    match c.get? r.name, budget with
    | none, _ => .error (.unknownLibrary r.referrer r.name)
    | some _, 0 => .ok found.reverse
    | some l, budget + 1 => walk c budget (l :: found) (queue ++ ofLibrary l)

/-- The libraries that the anchors refer to, directly or through others. -/
def resolve (c : Catalog) (anchors : List String) : Except ReferenceError ReferenceSet := do
  let queue ← anchorReferences c anchors
  let libraries ← walk c c.libraries.length [] queue
  pure ⟨libraries⟩

def names (r : ReferenceSet) : List String := r.libraries.map Library.name

def providesType (r : ReferenceSet) (name : String) : Bool :=
  r.libraries.any fun l => l.types.contains name

/-- The first function of a name. -/
def function? (r : ReferenceSet) (name : String) : Option Function :=
  (r.libraries.flatMap Library.functions).find? fun f => f.name = name

/-- The first document method of a name. -/
def documentMethod? (r : ReferenceSet) (name : String) : Option DocumentMethod :=
  (r.libraries.flatMap Library.documentMethods).find? fun m => m.name = name

end ReferenceSet

end ReportTemplate
