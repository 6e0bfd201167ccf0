import IndexSnapshot.Json.Printer

/-!
# Popular packages

The query for the packages that are installed most often, and how names are read off its rows.
-/

namespace IndexSnapshot.Discovery

/-- The query for the thousand packages installed most often between yesterday and today. -/
def popularityQuery : String :=
  String.join <| List.intersperse "\n" ["",
    "    SELECT file.project, COUNT(*) AS num_downloads",
    "    FROM \x60bigquery-public-data.pypi.file_downloads\x60",
    "    WHERE",
    "      details.installer.name = 'pip'",
    "      AND",
    "      DATE(timestamp)",
    "        BETWEEN DATE_SUB(CURRENT_DATE(), INTERVAL 1 DAY)",
    "        AND CURRENT_DATE()",
    "    GROUP BY file.project",
    "    ORDER BY num_downloads DESC",
    "    LIMIT 1000;",
    "    "]

/-- What is wrong with the rows of an answer. -/
inductive RowError where
  /-- A row, counted from zero, names no package: its value is no text, or there is none. -/
  | noName (row : Nat) (value : Option Json)
  deriving Repr

/-- The complaint in words. -/
def RowError.message : RowError → String
  | noName row value =>
    "잘못된 패키지명 (행 " ++ toString row ++ "): " ++ value.elim "undefined" Json.compact

/-- A value that is a row: an object, or a list. -/
def isRow : Json → Bool
  | .object _ | .array _ => true
  | _ => false

/-- The rows of an answer; values that are no rows are passed over. -/
def rows (values : List Json) : List Json := values.filter isRow

/-- The name in a row. -/
def rowName (row : Nat) (value : Json) : Except RowError String :=
  match value.member? "project" with
  | some (.string name) => .ok name
  | other => .error (.noName row other)

/-- The names in all rows, of which the first has the number given. -/
def rowNamesFrom (row : Nat) : List Json → Except RowError (List String)
  | [] => .ok []
  | value :: rest => do
    let name ← rowName row value
    let names ← rowNamesFrom (row + 1) rest
    return name :: names

/-- The names in all rows, one for each; the first row without a name is at fault. -/
def rowNames (values : List Json) : Except RowError (List String) := rowNamesFrom 0 values

end IndexSnapshot.Discovery
