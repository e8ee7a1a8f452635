import BasicOutline.Number.Double

/-! JSON values. The fields of an object keep the order in which they were first given. -/

namespace BasicOutline

inductive Json where
  | null
  | bool (value : Bool)
  | int (value : Int)
  | float (value : Double)
  | text (value : Text)
  | list (items : List Json)
  | object (fields : List (Text × Json))
  deriving Inhabited, Repr

namespace Json

abbrev Fields := List (Text × Json)

namespace Fields

def get? (fields : Fields) (key : Text) : Option Json := List.lookup key fields

/-- Gives a field its value; a field that is there keeps its place. -/
def put (key : Text) (value : Json) : Fields → Fields
  | [] => [(key, value)]
  | field :: rest =>
    if field.1 = key then (key, value) :: rest else field :: put key value rest

def putAll (fields more : Fields) : Fields :=
  more.foldl (fun fields field => fields.put field.1 field.2) fields

theorem get?_put (fields : Fields) (key other : Text) (value : Json) :
    (fields.put key value).get? other = if other = key then some value else fields.get? other := by
  induction fields with
  | nil => grind [put, get?]
  | cons field rest ih => grind [put, get?]

end Fields

mutual

def isFinite : Json → Bool
  | .null => true
  | .bool _ => true
  | .int _ => true
  | .float value => value.isFinite
  | .text _ => true
  | .list items => areFinite items
  | .object fields => haveFinite fields

def areFinite : List Json → Bool
  | [] => true
  | item :: rest => item.isFinite && areFinite rest

def haveFinite : List (Text × Json) → Bool
  | [] => true
  | (_, value) :: rest => value.isFinite && haveFinite rest

end

end Json

end BasicOutline
