import BuildGate.Json.Value

set_option autoImplicit false

namespace BuildGate.Compiler

def reserved : List String := ["noEmit", "pretty"]

def optionArguments (key : String) : Json → List String
  | .bool true => ["--" ++ key]
  | .bool false => ["--" ++ key, "false"]
  | .text value => ["--" ++ key, value]
  | .number value => ["--" ++ key, String.ofList value.toChars]
  | .array items => ["--" ++ key, ",".intercalate (items.filterMap Json.text?)]
  | .null | .object _ => []

def arguments : Json → List String
  | .object members =>
    (members.filter fun (key, _) => !reserved.contains key).flatMap fun (key, value) =>
      optionArguments key value
  | _ => []

end BuildGate.Compiler
