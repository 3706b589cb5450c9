/-
JSON values, and the merge patch SQLite's `json_patch` applies to them.

* `Json.lookup_put_self`, `Json.lookup_put_of_ne`: what is put under a name is found there, and the other
  members stay.
-/

import Mathlib.Data.List.Basic

namespace Bookrack

/-- A JSON value; the names of an object's members are distinct. -/
inductive Json
  | null
  | bool (value : Bool)
  | number (text : String)
  | str (text : String)
  | arr (items : List Json)
  | obj (members : List (String × Json))
  deriving Repr

namespace Json

/-- `as_object`. -/
def members? : Json → Option (List (String × Json))
  | .obj members => some members
  | _ => none

/-- `as_str`. -/
def str? : Json → Option String
  | .str text => some text
  | _ => none

/-- `get`, of an object. -/
def get? (value : Json) (name : String) : Option Json := value.members?.bind fun members => members.lookup name

/-- A member that is there keeps its place. -/
def put (name : String) (value : Json) : List (String × Json) → List (String × Json)
  | [] => [(name, value)]
  | member :: rest =>
    if member.1 = name then (name, value) :: rest else member :: put name value rest

mutual

/-- What a patch makes of a value. -/
def mergePatch (target : Json) : Json → Json
  | .obj patch => .obj (mergeMembers ((target.members?).getD []) patch)
  | patch => patch

/-- The members of a patch in turn: `null` takes a member away. -/
def mergeMembers (target : List (String × Json)) : List (String × Json) → List (String × Json)
  | [] => target
  | (name, .null) :: rest => mergeMembers (target.filter fun member => member.1 ≠ name) rest
  | (name, value) :: rest =>
    mergeMembers (put name (mergePatch ((target.lookup name).getD .null) value) target) rest

end

section Put

variable {name other : String} {value : Json} {members : List (String × Json)}

theorem lookup_put_self : (put name value members).lookup name = some value := by
  induction members with
  | nil => rw [put, List.lookup_cons, beq_self_eq_true]
  | cons member rest ih =>
    unfold put
    split_ifs with here
    · rw [List.lookup_cons, beq_self_eq_true]
    · have differ : (name == member.1) = false := by simpa using Ne.symm here
      rw [List.lookup_cons, differ]
      exact ih

/-- The other members stay. -/
theorem lookup_put_of_ne (differ : other ≠ name) :
    (put name value members).lookup other = members.lookup other := by
  have differ' : (other == name) = false := by simpa using differ
  induction members with
  | nil => rw [put, List.lookup_cons, differ']
  | cons member rest ih =>
    unfold put
    split_ifs with here
    · rw [List.lookup_cons, List.lookup_cons, here, differ']
    · rw [List.lookup_cons, List.lookup_cons, ih]

end Put

end Json

end Bookrack
