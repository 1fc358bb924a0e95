import ReportTemplate.Path
import ReportTemplate.Text.Search

/-!
# ReportTemplate.CommandLine.Arguments — reading the arguments

General options stand in front of the command and its own options behind it.  An option takes its
value from the next argument, or from its own behind an equals sign; behind a short name the sign may
be left out.  No option is given twice, and a path is not empty.
-/

namespace ReportTemplate.CommandLine

/-- Options that go with every command. -/
structure Options where
  config : Option Path := none
  root : Option Path := none
  template : Option String := none
deriving DecidableEq, Repr

inductive Command where
  /-- Renders the active template, to a file if there is one, or shows the report as JSON. -/
  | render (output : Option Path) (json : Bool)
  /-- Compiles the active template. -/
  | check
deriving DecidableEq, Repr

/-- What the arguments ask for. -/
inductive Request where
  | help
  | run (options : Options) (command : Command)
deriving DecidableEq, Repr

/-- Why arguments ask for nothing. -/
inductive UsageError where
  | missingCommand
  | unexpected (argument : String)
  | missingValue (option : String)
  | repeated (option : String)
deriving DecidableEq, Repr

def UsageError.message : UsageError → String
  | missingCommand => "a command is required"
  | unexpected argument => "unexpected argument '" ++ argument ++ "'"
  | missingValue option => "a value is required for '" ++ option ++ "'"
  | repeated option => "'" ++ option ++ "' cannot be used multiple times"

/-! ### Options with a value -/

/-- The rest of a text behind another one. -/
def behind? (lead s : String) : Option String :=
  if Text.startsWith lead.toList s.toList then
    some (String.ofList (s.toList.drop lead.length))
  else none

/-- An argument that cannot be the value of an option. -/
def looksLikeOption (s : String) : Bool := Text.startsWith ['-'] s.toList && s ≠ "-"

/-- The value that the next argument gives. -/
def nextValue (option : String) : List String → Except UsageError (String × List String)
  | [] => .error (.missingValue option)
  | v :: rest => if looksLikeOption v then .error (.missingValue option) else .ok (v, rest)

/-- The value of an option that the first argument names, and the arguments behind it. -/
def valueOf? (short long first : String) (rest : List String) :
    Option (Except UsageError (String × List String)) :=
  if first = short || first = long then some (nextValue long rest)
  else
    match behind? (long ++ "=") first with
    | some v => some (.ok (v, rest))
    | none => (behind? short first).map fun v => .ok ((behind? "=" v).getD v, rest)

/-- Sets an option that has not been set. -/
def setOnce {α : Type} (option : String) (old : Option α) (new : α) :
    Except UsageError (Option α) :=
  if old.isSome then .error (.repeated option) else .ok (some new)

def pathValue (option : String) (v : String) : Except UsageError Path :=
  if v.isEmpty then .error (.missingValue option) else .ok ⟨v⟩

/-- Two dashes end the options; nothing may stand behind them. -/
def endsOptions (first : String) (rest : List String) : Bool := first = "--" && rest.isEmpty

def asksForHelp (argument : String) : Bool :=
  argument = "--help" || Text.startsWith "-h".toList argument.toList

/-! ### Requests -/

/-- Reads what stands behind the command `render`. -/
def readRender (options : Options) (output : Option Path) (json : Bool) :
    Nat → List String → Except UsageError Request
  | 0, _ | _, [] => .ok (.run options (.render output json))
  | fuel + 1, first :: rest =>
    if asksForHelp first then .ok .help
    else if endsOptions first rest then .ok (.run options (.render output json))
    else if first = "--json" then
      if json then .error (.repeated first) else readRender options output true fuel rest
    else
      match valueOf? "-o" "--output" first rest with
      | none => .error (.unexpected first)
      | some found => do
        let (v, rest) ← found
        let output ← setOnce "--output" output (← pathValue "--output" v)
        readRender options output json fuel rest

/-- Reads what stands behind the command `check`. -/
def readCheck (options : Options) : List String → Except UsageError Request
  | [] => .ok (.run options .check)
  | first :: rest =>
    if asksForHelp first then .ok .help
    else if endsOptions first rest then .ok (.run options .check)
    else .error (.unexpected first)

/-- Reads a command. -/
def readCommand (options : Options) (name : String) (rest : List String) :
    Except UsageError Request :=
  if name = "render" then readRender options none false rest.length rest
  else if name = "check" then readCheck options rest
  else if name = "help" then .ok .help
  else .error (.unexpected name)

/-- Reads general options and the command behind them. -/
def readFrom : Nat → Options → List String → Except UsageError Request
  | 0, _, _ | _, _, [] => .error .missingCommand
  | fuel + 1, options, first :: rest =>
    if asksForHelp first then .ok .help
    else
      match valueOf? "-c" "--config" first rest with
      | some found => do
        let (v, rest) ← found
        let config ← setOnce "--config" options.config (← pathValue "--config" v)
        readFrom fuel { options with config := config } rest
      | none =>
        match valueOf? "-r" "--root" first rest with
        | some found => do
          let (v, rest) ← found
          let root ← setOnce "--root" options.root (← pathValue "--root" v)
          readFrom fuel { options with root := root } rest
        | none =>
          match valueOf? "-t" "--template" first rest with
          | some found => do
            let (v, rest) ← found
            let template ← setOnce "--template" options.template v
            readFrom fuel { options with template := template } rest
          | none => readCommand options first rest

/-- The request that arguments make. -/
def Request.read (arguments : List String) : Except UsageError Request :=
  readFrom arguments.length {} arguments

end ReportTemplate.CommandLine
