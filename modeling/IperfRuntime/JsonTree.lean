import Mathlib.Data.Rat.Defs

/-!
# Parsed JSON

The tree that `cJSON_Parse` returns, with the accessors through which the control
protocol reads it. The parser and the printer are built on it. Every node has an
integer, a double and a string slot; a slot that the parser did not fill reads as
zero or as a null pointer.
-/

namespace IperfRuntime.JsonTree

/-- A `cJSON` node with the children hanging from it. -/
inductive CJson where
  /-- `cJSON_NULL`. -/
  | null
  /-- `cJSON_False`. -/
  | false
  /-- `cJSON_True`. -/
  | true
  /-- `cJSON_Number`, whose integer slot is the double truncated to 64 bits. -/
  | number (valueint : ℤ) (valuedouble : ℚ)
  /-- `cJSON_String`. -/
  | string (valuestring : String)
  /-- `cJSON_Array`. -/
  | array (children : List CJson)
  /-- `cJSON_Object`, members in their textual order. -/
  | object (members : List (String × CJson))

/-- `valueint`, which the parser also sets to one for `true`. -/
def CJson.valueint : CJson → ℤ
  | .number i _ => i
  | .true => 1
  | _ => 0

/-- `valuedouble`. -/
def CJson.valuedouble : CJson → ℚ
  | .number _ d => d
  | _ => 0

/-- `valuestring`, a null pointer on every node that is not a string. -/
def CJson.valuestring : CJson → Option String
  | .string s => some s
  | _ => none

/-- `cJSON_strcasecmp(a, b) == 0`. -/
def sameKey (a b : String) : Bool := a.toList.map Char.toLower == b.toList.map Char.toLower

/-- The first member with the given name, without regard to case. -/
def lookupMember (name : String) : List (String × CJson) → Option CJson
  | [] => none
  | (key, value) :: rest => if sameKey key name then some value else lookupMember name rest

/-- `cJSON_GetObjectItem`: children of an array have no name, other nodes have no
children. -/
def getObjectItem (j : CJson) (name : String) : Option CJson :=
  match j with
  | .object members => lookupMember name members
  | _ => none

/-- The children of a node, as `cJSON_GetArraySize` and `cJSON_GetArrayItem` walk them. -/
def arrayItems : CJson → List CJson
  | .array children => children
  | .object members => members.map Prod.snd
  | _ => []

/-- An integer node as `cJSON_CreateNumber` builds it. -/
def createNumber (n : ℤ) : CJson := .number n n

end IperfRuntime.JsonTree
