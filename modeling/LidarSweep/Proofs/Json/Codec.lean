import LidarSweep.Json.Codec
import LidarSweep.Proofs.Json.Printing
import LidarSweep.Proofs.Json.Record

/-!
# What a codec has to do

`Codec.Lawful` asks of a codec what the grammar says of texts and what reading a record means: names
in any order, unknown ones skipped, the default where nothing is given, and nothing given twice.
The reader, the printer and the decoder of this library are such a codec (`codec_lawful`).  From the
laws follows what a record comes to in whose object some settings are listed
(`Codec.Lawful.decode_of_listed`).
-/

namespace LidarSweep.Json

open RecordField

/-- A value that records of numbers and truth values are printed as. -/
inductive IsPlain : Json → Prop where
  | bool (b : Bool) : IsPlain (.bool b)
  | number {n : Nat} (hSmall : n < UInt64.size) : IsPlain (.ofNat n)
  | record {members : List (JsonString × Json)} (hText : AllText members)
      (hValues : ∀ m ∈ members, IsPlain m.2) : IsPlain (.object members)

namespace Codec

structure Lawful (codec : Codec) : Prop where
  /-- A document of the grammar has the value it spells. -/
  reads {text : String} {v : Json} (hText : IsDocument text v) : codec.read? text = some v
  /-- What is printed is such a document. -/
  prints {v : Json} (hPlain : IsPlain v) : IsDocument (codec.print v) v
  /-- An object gives each field at most one value, in any order, and may have other members. -/
  decodes {α : Type} {fields : List (RecordField α)} {members : List (JsonString × Json)} {r : α}
    (hApart : Apart fields) (hText : AllText members)
    (hOnce : ¬ Repeats (fields.map RecordField.name) members) :
    codec.decode fields r (.object members) = takeAll members fields r
  /-- A name that is no text is refused, and so is a field that is given twice. -/
  refuses {α : Type} {fields : List (RecordField α)} {members : List (JsonString × Json)} {r : α}
    (hApart : Apart fields)
    (hFlaw : ¬ AllText members ∨ Repeats (fields.map RecordField.name) members) :
    codec.decode fields r (.object members) = none

end Codec

theorem codec_lawful : codec.Lawful where
  reads hText := hText.read?
  prints _ := isDocument_print _
  decodes hApart hText hOnce := RecordField.decode_object hApart hText hOnce
  refuses hApart hFlaw := RecordField.decode_object_of_flawed hApart.keys hFlaw

/-! ### Settings that are listed -/

/-- A setting, how its values are spelled, and the value that is given, if one is. -/
structure Entry (α : Type) where
  {β : Type}
  setting : Setting α β
  Spelling : β → Json → Prop
  given : Option β
  read : ∀ b v, Spelling b v → setting.read v = some b

namespace Entry

variable {α : Type} {members : List (JsonString × Json)}

def field (e : Entry α) : RecordField α := e.setting.field

/-- What becomes of the record. -/
def apply (e : Entry α) (r : α) : α := e.given.elim r fun b => e.setting.set b r

def ListedIn (e : Entry α) (members : List (JsonString × Json)) : Prop :=
  Listed e.setting.name e.Spelling e.given members

theorem ListedIn.take {e : Entry α} (h : e.ListedIn members) (r : α) :
    e.field.take members r = some (e.apply r) := by
  obtain ⟨setting, Spelling, given, hRead⟩ := e
  have hName : (setting.field).name = setting.name := rfl
  unfold RecordField.take
  cases given with
  | none =>
    have hNone : valuesOf setting.name members = [] := h
    rw [field, hName, hNone]
    rfl
  | some b =>
    obtain ⟨v, hOne, hSpelling⟩ : ∃ v, valuesOf setting.name members = [v] ∧ Spelling b v := h
    rw [field, hName, hOne]
    dsimp only
    rw [setting.put_field, hRead b v hSpelling]
    rfl

theorem ListedIn.length_le_one {e : Entry α} (h : e.ListedIn members) :
    (valuesOf e.setting.name members).length ≤ 1 := by
  obtain ⟨setting, Spelling, given, hRead⟩ := e
  cases given with
  | none =>
    have hNone : valuesOf setting.name members = [] := h
    rw [hNone]
    exact Nat.zero_le 1
  | some b =>
    obtain ⟨v, hOne, -⟩ : ∃ v, valuesOf setting.name members = [v] ∧ Spelling b v := h
    rw [hOne]
    exact Nat.le_refl 1

theorem takeAll_of_listed {entries : List (Entry α)} (h : ∀ e ∈ entries, e.ListedIn members)
    (r : α) :
    takeAll members (entries.map field) r = some (entries.foldl (fun r e => e.apply r) r) := by
  induction entries generalizing r with
  | nil => rfl
  | cons e entries ih =>
    obtain ⟨hFirst, hLater⟩ := List.forall_mem_cons.mp h
    rw [List.map_cons, takeAll, hFirst.take, Option.bind_some, ih hLater, List.foldl_cons]

end Entry

namespace Codec.Lawful

variable {codec : Codec} {α β : Type} {members : List (JsonString × Json)}

/-- **An object in which settings are listed** gives the record with all that is given. -/
theorem decode_of_listed (h : codec.Lawful) {entries : List (Entry α)}
    (hListed : ∀ e ∈ entries, e.ListedIn members) {fields : List (RecordField α)}
    (hFields : entries.map Entry.field = fields) (hApart : Apart fields) (hText : AllText members)
    (r : α) :
    codec.decode fields r (.object members) =
      some (entries.foldl (fun r e => e.apply r) r) := by
  subst hFields
  rw [h.decodes hApart hText, Entry.takeAll_of_listed hListed]
  rintro ⟨name, hName, hTwice⟩
  rw [List.map_map, List.mem_map] at hName
  obtain ⟨e, he, rfl⟩ := hName
  have hOnce := (hListed e he).length_le_one
  change 2 ≤ (valuesOf e.setting.name members).length at hTwice
  omega

/-- A value that a setting cannot read spoils the record. -/
theorem decode_of_unread (h : codec.Lawful) {fields : List (RecordField α)} (hApart : Apart fields)
    (setting : Setting α β) (hField : setting.field ∈ fields) {v : Json}
    (hv : v ∈ valuesOf setting.name members) (hRead : setting.read v = none) (r : α) :
    codec.decode fields r (.object members) = none := by
  by_cases hFlaw : ¬ AllText members ∨ Repeats (fields.map RecordField.name) members
  · exact h.refuses hApart hFlaw
  · rw [not_or, not_not] at hFlaw
    rw [h.decodes hApart hFlaw.1 hFlaw.2]
    refine takeAll_eq_none hField fun s => ?_
    have hOnce : ¬ 2 ≤ (valuesOf setting.name members).length := fun hTwice =>
      hFlaw.2 ⟨setting.name, List.mem_map_of_mem hField, hTwice⟩
    have hName : (setting.field).name = setting.name := rfl
    unfold RecordField.take
    rw [hName]
    match hValues : valuesOf setting.name members, hv, hOnce with
    | [w], hv, _ =>
      obtain rfl := List.mem_singleton.mp hv
      dsimp only
      rw [setting.put_field, hRead]
      rfl
    | _ :: _ :: _, _, hOnce => exact absurd (Nat.le_add_left 2 _) hOnce

end Codec.Lawful

end LidarSweep.Json
