import CilGraph.Text.Numeral

namespace CilGraph
namespace Report

/-!
# Structured reports

A report can be asked for as JSON.  The values are those that reports are made
of: texts, natural numbers, truth values, lists, and records whose fields keep
the order in which they are given.

The layout spreads a list or a record over lines, one item a line and two
spaces deeper; an empty one stays on its line.
-/

/-- A value of a structured report. -/
inductive Json where
  | text (value : String)
  | number (value : Nat)
  | truth (value : Bool)
  | list (items : List Json)
  | record (fields : List (String × Json))
deriving Repr

namespace Json

/-- How a character stands between quotes.  Quotes, backslashes and control
characters are escaped, and everything else stands for itself. -/
def escapeChar (c : Char) : String :=
  if c = '"' then "\\\""
  else if c = '\\' then "\\\\"
  else if c.toNat = 8 then "\\b"
  else if c.toNat = 9 then "\\t"
  else if c.toNat = 10 then "\\n"
  else if c.toNat = 12 then "\\f"
  else if c.toNat = 13 then "\\r"
  else if c.toNat < 32 then "\\u" ++ Text.hexLower 4 c.toNat
  else c.toString

/-- A text between quotes. -/
def quote (value : String) : String :=
  "\"" ++ String.join (value.toList.map escapeChar) ++ "\""

/-- The blanks in front of a line. -/
def margin (depth : Nat) : String :=
  String.ofList (List.replicate (2 * depth) ' ')

/-- Items between two brackets, one a line, at the given depth. -/
def enclose (left right : String) (depth : Nat) (items : List String) : String :=
  if items.isEmpty then left ++ right
  else
    let lines := items.map (fun item => margin (depth + 1) ++ item)
    left ++ "\n" ++ String.intercalate ",\n" lines ++ "\n" ++ margin depth ++ right

mutual

/-- The text of a value that begins at the given depth. -/
def layOut (depth : Nat) : Json -> String
  | text value => quote value
  | number value => toString value
  | truth value => if value then "true" else "false"
  | list items => enclose "[" "]" depth (layOutItems (depth + 1) items)
  | record fields => enclose "\x7b" "\x7d" depth (layOutFields (depth + 1) fields)

/-- The texts of the items of a list. -/
def layOutItems (depth : Nat) : List Json -> List String
  | [] => []
  | item :: rest => layOut depth item :: layOutItems depth rest

/-- The texts of the fields of a record. -/
def layOutFields (depth : Nat) : List (String × Json) -> List String
  | [] => []
  | (name, value) :: rest =>
    (quote name ++ ": " ++ layOut depth value) :: layOutFields depth rest

end

/-- The text of a report, with the end of its last line. -/
def render (value : Json) : String :=
  layOut 0 value ++ "\n"

/-- A list of texts. -/
def texts (values : List String) : Json :=
  list (values.map text)

end Json
end Report
end CilGraph
