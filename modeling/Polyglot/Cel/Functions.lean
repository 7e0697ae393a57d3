import Polyglot.Cel.Types

/-!
The methods that protovalidate adds to CEL, and the variables that it binds.
-/
namespace Polyglot.Cel

structure Overload where
  id : String
  member : Bool
  parameters : List CelType
  result : CelType
deriving DecidableEq

structure Function where
  name : String
  overloads : List Overload
deriving DecidableEq

/-- The methods, each with the parameter lists it takes, the receiver first. -/
def methods : List (String × List (List CelType)) :=
  [ ("isEmail", [[.string]]),
    ("isHostname", [[.string]]),
    ("isIp", [[.string], [.string, .int]]),
    ("isIpPrefix", [[.string], [.string, .int], [.string, .int, .bool]]),
    ("isUri", [[.string]]),
    ("isUriRef", [[.string]]),
    ("unique", [[.list .dyn]]),
    ("isNan", [[.double]]),
    ("isInf", [[.double], [.double, .int]]) ]

def suffix : CelType → String
  | .string => "string"
  | .int => "int"
  | .bool => "bool"
  | .double => "double"
  | _ => "list"

/-- The declarations; an overload is named for the method and the types of its parameters. -/
def functions : List Function :=
  methods.map fun (name, signatures) =>
    ⟨name, signatures.map fun parameters =>
      ⟨"_".intercalate (name :: parameters.map suffix), true, parameters, .bool⟩⟩

abbrev Environment := List (String × CelType)

def Environment.bind (env : Environment) (name : String) (type : CelType) : Environment :=
  env.filter (·.1 ≠ name) ++ [(name, type)]

def baseEnvironment : Environment := [("this", .dyn), ("rules", .dyn), ("now", .timestamp)]

end Polyglot.Cel
