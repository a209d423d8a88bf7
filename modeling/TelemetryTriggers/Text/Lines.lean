/-!
# Lines and columns

Main definitions: `lines`, a text of several lines; `padded`, a text that fills
its column.
-/

namespace TelemetryTriggers
namespace Text

def lines : List String → String
  | [] => ""
  | l :: ls => l ++ "\n" ++ lines ls

def padded (width : Nat) (s : String) : String :=
  s ++ String.ofList (List.replicate (width - s.length) ' ')

def rule (width : Nat) (c : Char) : String :=
  String.ofList (List.replicate width c)

end Text
end TelemetryTriggers
