import LidarSweep.Json

/-!
# Records in JSON

A record is an object of its fields in any order, or an array of them in the order of declaration.
Fields that are not given keep their defaults. Of an object, members with other names are skipped
and a repeated field is refused; an array must not be longer than the fields.
-/

namespace LidarSweep.Json

/-- A field's name, and how its value goes into the record. -/
structure RecordField (α : Type) where
  name : String
  put : Json → α → Option α

namespace RecordField

variable {α : Type}

/-- The fields that `members` give, in their order; `seen` are the names given before. -/
def ofMembers (fields : List (RecordField α)) (seen : List String) (record : α) :
    List (JsonString × Json) → Option α
  | [] => some record
  | (name, value) :: members =>
    if !name.isText then none
    else
      match fields.find? fun field => name == JsonString.ofString field.name with
      | none => ofMembers fields seen record members
      | some field =>
        if field.name ∈ seen then none
        else
          (field.put value record).bind fun record =>
            ofMembers fields (field.name :: seen) record members

def ofItems (record : α) : List (RecordField α) → List Json → Option α
  | _, [] => some record
  | [], _ :: _ => none
  | field :: fields, item :: items =>
    (field.put item record).bind fun record => ofItems record fields items

/-- The record that a value gives, over the defaults. -/
def decode (fields : List (RecordField α)) (defaults : α) : Json → Option α
  | .object members => ofMembers fields [] defaults members
  | .array items => ofItems defaults fields items
  | _ => none

end RecordField

/-- A part of a record: its name, how its value is read, and where it goes. -/
structure Setting (α β : Type) where
  name : String
  read : Json → Option β
  set : β → α → α

def Setting.field {α β : Type} (setting : Setting α β) : RecordField α :=
  ⟨setting.name, fun v r => (setting.read v).map fun b => setting.set b r⟩

end LidarSweep.Json
