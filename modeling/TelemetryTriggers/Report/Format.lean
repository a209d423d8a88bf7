import TelemetryTriggers.Json.Writer
import TelemetryTriggers.Text.Lines

/-!
# Reports

What a command answers can be read as a table or as JSON.

Main definitions: `Format`, the two forms; `Report`, an answer in both of them;
`Report.write`.
-/

namespace TelemetryTriggers

inductive Format
  | table
  | json
deriving DecidableEq

structure Report where
  table : List String
  json : Json

def Report.write (r : Report) : Format → String
  | .table => Text.lines r.table
  | .json => r.json.pretty

end TelemetryTriggers
