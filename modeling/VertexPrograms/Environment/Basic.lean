/-!
# Environments

The variables a program is started with. A variable that is defined keeps its value.
-/

namespace VertexPrograms

/-- Variables with their values; of two entries for a variable the first counts. -/
abbrev Environment := List (String × String)

namespace Environment

/-- The value under a name. An entry is held as one text, the name and the value with an equals sign
between them, and the value is what stands behind the name asked for and an equals sign. So a name
with an equals sign in it asks for a part of a value. -/
def valueOf? (env : Environment) (name : String) : Option String :=
  env.findSome? fun (key, value) =>
    let asked := name.toList ++ ['=']
    let held := key.toList ++ '=' :: value.toList
    if asked.isPrefixOf held then some (String.ofList (held.drop asked.length)) else none

/-- Whether a text can be a value: a zero character would end it. -/
def canHold (value : String) : Bool := !value.toList.contains '\x00'

/-- The environment with one more variable, unless it is there already; none if the variable is not
there and the value cannot be one. -/
def define (env : Environment) (name value : String) : Option Environment :=
  if (env.valueOf? name).isSome then some env
  else if canHold value then some (env ++ [(name, value)])
  else none

example : valueOf? [("A", "B=C")] "A" = some "B=C" ∧ valueOf? [("A", "B=C")] "A=B" = some "C" := by
  decide +kernel

end Environment

end VertexPrograms
