import EmailOps.Email.Types

/-!
# What the client reads of a JMAP answer

A JMAP request is a list of method calls, and its answer lists a response for each of them:
the name of the method, or `error`, with the arguments and the tag of the call. The client
takes an answer apart with optional chaining, so that anything unexpected reads as absent.

* `prop`, `methodResponses` and `named` are the readers, over any JSON value.
* `setArguments` is what a server says about one `Foo/set` call, and `named_respond` that the
  client reads it back.
-/

namespace EmailOps
namespace Stalwart

open Framework

/-- `value?.key`: absent of everything but an object that has the key. -/
def prop (value : Option Json) (key : String) : Option Json :=
  match value with
  | some (.obj fields) => Json.get fields key.toList
  | _ => none

/-- `typeof value === 'string' ? value : null`. -/
def stringOf (value : Option Json) : Option Text :=
  match value with
  | some (.str s) => some s
  | _ => none

/-- The responses of a payload, `none` where it is not an answer of the protocol. A payload
that never came, or is not JSON, is `none` itself. -/
def methodResponses (payload : Option Json) : Option (List Json) :=
  match prop payload "methodResponses" with
  | some (.arr responses) => some responses
  | _ => none

/-- `Array.isArray(x) && x[0] === method`. -/
def answers (method : String) : Json → Bool
  | .arr (.str name :: _) => name = method.toList
  | _ => false

/-- `r[1]`. -/
def arguments : Json → Option Json
  | .arr (_ :: args :: _) => some args
  | _ => none

/-- `named`: the arguments of the first response of a method. -/
def named (responses : List Json) (method : String) : Option Json :=
  (responses.find? (answers method)).bind arguments

/-! ### What a server says -/

/-- An object with its keys in order. -/
def object (fields : List (String × Json)) : Json :=
  .obj (fields.map fun f => (f.1.toList, f.2))

/-- The response of a method. -/
def respond (method : String) (args : Json) (tag : String) : Json :=
  .arr [.str method.toList, args, .str tag.toList]

/-- The payload of an answer. -/
def payloadOf (responses : List Json) : Json :=
  object [("methodResponses", .arr responses), ("sessionState", .str "0".toList)]

/-- What a `Foo/set` has done: the id of the object it was to create under a key, or the
type of the error, and which objects it destroyed and which it did not. -/
structure SetArguments where
  key : String
  created : Option String
  error : Text
  destroyed : List String
  notDestroyed : List String

/-- The arguments of the response of a `Foo/set`. -/
def setArguments (a : SetArguments) : Json :=
  object
    [("created", match a.created with
        | some id => object [(a.key, object [("id", .str id.toList)])]
        | none => .null),
      ("notCreated", match a.created with
        | some _ => .null
        | none => object [(a.key, object [("type", .str a.error)])]),
      ("destroyed", .arr (a.destroyed.map fun id => .str id.toList)),
      ("notDestroyed", object (a.notDestroyed.map fun id =>
        (id, object [("type", .str "notFound".toList)])))]

/-! ### What the client reads back -/

@[simp] theorem prop_none (key : String) : prop none key = none := rfl

@[simp] theorem prop_null (key : String) : prop (some .null) key = none := rfl

theorem prop_object_head (key : String) (v : Json) (fields : List (String × Json)) :
    prop (some (object ((key, v) :: fields))) key = some v := by
  simp [prop, object, Json.get, List.lookup_cons]

@[simp] theorem methodResponses_payloadOf (responses : List Json) :
    methodResponses (some (payloadOf responses)) = some responses := by
  rw [methodResponses, payloadOf, prop_object_head]

@[simp] theorem answers_respond (method name : String) (args : Json) (tag : String) :
    answers method (respond name args tag) = decide (name = method) := by
  simp [answers, respond, String.toList_inj]

@[simp] theorem arguments_respond (name : String) (args : Json) (tag : String) :
    arguments (respond name args tag) = some args := rfl

@[simp] theorem named_respond (method : String) (args : Json) (tag : String)
    (responses : List Json) :
    named (respond method args tag :: responses) method = some args := by
  simp [named]

theorem named_respond_of_ne {method name : String} (h : name ≠ method) (args : Json)
    (tag : String) (responses : List Json) :
    named (respond name args tag :: responses) method = named responses method := by
  simp [named, h]

@[simp] theorem named_nil (method : String) : named [] method = none := rfl

theorem created_setArguments (a : SetArguments) :
    prop (some (setArguments a)) "created" =
      some (match a.created with
        | some id => object [(a.key, object [("id", .str id.toList)])]
        | none => .null) :=
  prop_object_head _ _ _

end Stalwart
end EmailOps
