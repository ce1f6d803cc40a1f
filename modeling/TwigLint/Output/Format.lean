import TwigLint.Output.Csv
import TwigLint.Output.Json
import TwigLint.Output.Table
import TwigLint.Text.Quoted

/-! # Output formats

What a command prints can be shown as a table, as text, as JSON or as comma-separated values.
-/

namespace TwigLint

inductive OutputFormat where
  | table
  | text
  | json
  | csv
  deriving DecidableEq, Repr

/-- What is printed: a plain text, or rows of cells that also have a text and a JSON form. -/
inductive Content where
  | plain (t : Text)
  | tabular (columns : List Text) (rows : List (List Text)) (lines : Text) (value : Json)

namespace OutputFormat

def name : OutputFormat → Text
  | table => "table"
  | text => "text"
  | json => "json"
  | csv => "csv"

def all : List OutputFormat := [table, text, json, csv]

/-- The format with a name in any case and with white space around it. -/
def read? (t : Text) : Option OutputFormat :=
  let word := t.trimSpace.lowerAscii
  all.find? (·.name == word)

/-- The message for a name that no format has. -/
def unknownMessage (t : Text) : Text :=
  "unknown output format " ++ t.quoted ++ " (want table, text, json or csv)"

/-- The indented JSON form. -/
def jsonText (v : Json) : Text := v.indented Json.reportStyle 0 ++ "\n"

/-- The text of some content; none if the format cannot show it. -/
def render? (f : OutputFormat) (c : Content) : Option Text :=
  match f, c with
  | .json, .plain t => some (jsonText (.text t))
  | .csv, .plain _ => none
  | _, .plain t => some (t ++ "\n")
  | .table, .tabular columns rows _ _ => some (Table.render columns rows)
  | .text, .tabular _ _ lines _ => some lines
  | .json, .tabular _ _ _ value => some (jsonText value)
  | .csv, .tabular columns rows _ _ => some (Csv.render columns rows)

/-- The message for a plain text where a table is needed. -/
def notTabularMessage : Text := "csv output not supported for string"

end OutputFormat

end TwigLint
