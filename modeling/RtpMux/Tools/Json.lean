import Mathlib.Algebra.Order.Field.Rat
import RtpMux.Tools.Text

/-!
# JSON values

The value type of `tools/json.rs` as its readers use it: accessors that return nothing on the wrong
kind of value, truthiness, and the printed form a diagnostic shows. Integers are unbounded and
floats are exact rationals; how a float prints is a parameter. The parser and the writer are about
texts and not about arithmetic: they have `JsonReader.Value`, with the width of `i64` and an
arbitrary type of floats.
-/

namespace RtpMux

/-- `Json`. -/
inductive Json where
  | null
  | bool (value : Bool)
  | int (value : Int)
  | float (value : ℚ)
  | str (text : String)
  | array (items : List Json)
  /-- The members of an object, at most one for each key. -/
  | object (members : List (String × Json))

namespace Json

/-- `as_object`. -/
def asObject : Json → Option (List (String × Json))
  | object members => some members
  | _ => none

/-- `as_array`. -/
def asArray : Json → Option (List Json)
  | array items => some items
  | _ => none

/-- `as_str`. -/
def asStr : Json → Option String
  | str text => some text
  | _ => none

/-- A member of an object. -/
def get (json : Json) (key : String) : Option Json := json.asObject.bind (List.lookup key)

/-- `is_number`. -/
def isNumber : Json → Bool
  | int _ | float _ => true
  | _ => false

/-- `as_f64`: the number, exactly. -/
def asNumber : Json → Option ℚ
  | int value => some value
  | float value => some value
  | _ => none

/-- Python's truth of a value. -/
def truthy : Json → Bool
  | null => false
  | bool value => value
  | int value => value ≠ 0
  | float value => value ≠ 0
  | str text => text ≠ ""
  | array items => !items.isEmpty
  | object members => !members.isEmpty

section Repr

variable (reprFloat : ℚ → String)

mutual

/-- `json_repr` of a value that is there. -/
def reprValue : Json → String
  | null => "None"
  | bool true => "True"
  | bool false => "False"
  | int value => toString value
  | float value => reprFloat value
  | str text => Text.reprStr text
  | array items => "[" ++ ", ".intercalate (reprItems items) ++ "]"
  | object members => "\x7b" ++ ", ".intercalate (reprMembers members) ++ "\x7d"

/-- The printed items of an array. -/
def reprItems : List Json → List String
  | [] => []
  | item :: items => reprValue item :: reprItems items

/-- The printed members of an object. -/
def reprMembers : List (String × Json) → List String
  | [] => []
  | (key, item) :: members => (Text.reprStr key ++ ": " ++ reprValue item) :: reprMembers members

end

/-- `json_repr`: an absent value prints like a null. -/
def repr (value : Option Json) : String :=
  match value with
  | some value => reprValue reprFloat value
  | none => "None"

end Repr

end Json

end RtpMux
