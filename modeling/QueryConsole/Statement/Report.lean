import QueryConsole.Statement.Bindings
import QueryConsole.Json.Basic

namespace QueryConsole

def ValueType.tag : ValueType → String
  | .text => "text"
  | .textArray => "text_array"
  | .uint64 => "uint64"
  | .dateTime => "date_time"

def Value.json : Value → Json
  | .text s => .text s
  | .textArray items => .array (items.map Json.text)
  | .uint64 n => .ofNat n.toNat
  | .dateTime literal => .text literal

def Binding.json (b : Binding) : Json :=
  .object [("name", .text b.name), ("t", .text b.value.type.tag), ("v", b.value.json)]

def Bindings.json (b : Bindings) : Json :=
  .array (b.toList.map Binding.json)

def Statement.json (s : Statement) : Json :=
  .object [("sql", .text s.text), ("params", s.bindings.json)]

end QueryConsole
