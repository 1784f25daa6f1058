/-!
# Writing comma-separated values

A field is put in quotes where it holds a comma, a quote or a line end, and a quote within it is
written twice. Records end with a line feed.
-/

namespace Purse.Csv

/-- Whether a character makes quotes necessary. -/
def needsQuotes (c : Char) : Bool := c == ',' || c == '"' || c == '\r' || c == '\n'

/-- Characters with each quote written twice. -/
def doubled (cs : List Char) : List Char :=
  cs.flatMap fun c => if c = '"' then ['"', '"'] else [c]

/-- The characters of a field. -/
def fieldChars (field : String) : List Char :=
  let cs := field.toList
  if cs.any needsQuotes then '"' :: (doubled cs ++ ['"']) else cs

/-- The characters of a record of two fields or more. -/
def recordChars (fields : List String) : List Char :=
  List.intercalate [','] (fields.map fieldChars) ++ ['\n']

/-- The text of records. -/
def write (records : List (List String)) : String :=
  String.ofList (records.flatMap recordChars)

end Purse.Csv
