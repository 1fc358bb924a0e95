/-!
# ReportTemplate.Report.Json — strings and lists of strings as JSON

Only the quote, the backslash and control characters are escaped, with short forms where there are
some.  A list has one item a line.
-/

namespace ReportTemplate.Report.Json

/-- A digit of base sixteen. -/
def hexDigit (n : Nat) : Char := if n < 10 then Char.ofNat (n + 48) else Char.ofNat (n + 87)

/-- A character as it stands inside a string. -/
def escape (c : Char) : List Char :=
  if c = '"' then ['\\', '"']
  else if c = '\\' then ['\\', '\\']
  else if c = '\x08' then ['\\', 'b']
  else if c = '\t' then ['\\', 't']
  else if c = '\n' then ['\\', 'n']
  else if c = '\x0c' then ['\\', 'f']
  else if c = '\r' then ['\\', 'r']
  else if c.toNat < 32 then ['\\', 'u', '0', '0', hexDigit (c.toNat / 16), hexDigit (c.toNat % 16)]
  else [c]

/-- A string with its quotes. -/
def quoted (s : String) : String := "\"" ++ String.ofList (s.toList.flatMap escape) ++ "\""

/-- A list of strings on lines of their own, the list itself standing behind `indent`. -/
def list (indent : String) (items : List String) : String :=
  if items.isEmpty then "[]"
  else
    let lines := items.map fun s => indent ++ "  " ++ quoted s
    "[\n" ++ ",\n".intercalate lines ++ "\n" ++ indent ++ "]"

end ReportTemplate.Report.Json
