import Mathlib.Data.List.Nodup
import LidarSweep.Json.Record

/-!
# Records in JSON

An object whose names are all text and which gives no field twice is read field by field, whatever
the order of its members and whatever else stands among them (`RecordField.decode_object`).  Any
other object is refused (`RecordField.decode_object_of_flawed`).
-/

namespace LidarSweep.Json

/-- The values that stand under a name, in their order. -/
def valuesOf (name : String) (members : List (JsonString × Json)) : List Json :=
  (members.filter fun m => m.1 == .ofString name).map Prod.snd

theorem valuesOf_cons_of_ne {key : JsonString} {name : String} (h : key ≠ .ofString name) (v : Json)
    (members : List (JsonString × Json)) :
    valuesOf name ((key, v) :: members) = valuesOf name members := by
  simp [valuesOf, h]

/-- In every name each surrogate stands in a pair.  Of the strings elsewhere nothing is asked. -/
def AllText (members : List (JsonString × Json)) : Prop := ∀ m ∈ members, m.1.isText = true

/-- One of these names stands more than once. -/
def Repeats (names : List String) (members : List (JsonString × Json)) : Prop :=
  ∃ name ∈ names, 2 ≤ (valuesOf name members).length

namespace RecordField

variable {α : Type} {fields : List (RecordField α)} {seen : List String} {r r' : α}
  {members : List (JsonString × Json)}

def key (field : RecordField α) : JsonString := .ofString field.name

theorem valuesOf_cons_key (f : RecordField α) (v : Json) :
    valuesOf f.name ((f.key, v) :: members) = v :: valuesOf f.name members := by
  simp [valuesOf, key]

/-- A field is found by its name. -/
theorem find?_key (hKeys : (fields.map key).Nodup) {f : RecordField α} (hf : f ∈ fields) :
    (fields.find? fun g => f.key == JsonString.ofString g.name) = some f := by
  cases hFind : fields.find? fun g => f.key == JsonString.ofString g.name with
  | none => exact absurd (beq_self_eq_true f.key) (List.find?_eq_none.mp hFind f hf)
  | some g =>
    have hName := List.find?_some hFind
    rw [List.inj_on_of_nodup_map hKeys hf (List.mem_of_find?_eq_some hFind)
      (beq_iff_eq.mp hName)]

theorem ofMembers_cons_of_unknown {name : JsonString} (hText : name.isText = true)
    (hUnknown : ∀ f ∈ fields, name ≠ f.key) (v : Json) :
    ofMembers fields seen r ((name, v) :: members) = ofMembers fields seen r members := by
  have hFind : (fields.find? fun g => name == JsonString.ofString g.name) = none :=
    List.find?_eq_none.mpr fun g hg hName => hUnknown g hg (beq_iff_eq.mp hName)
  simp only [ofMembers, hText, hFind, Bool.not_true, Bool.false_eq_true, if_false]

theorem ofMembers_cons_of_mem (hKeys : (fields.map key).Nodup) {f : RecordField α}
    (hf : f ∈ fields) (hText : f.key.isText = true) (v : Json) :
    ofMembers fields seen r ((f.key, v) :: members) =
      if f.name ∈ seen then none
      else (f.put v r).bind fun s => ofMembers fields (f.name :: seen) s members := by
  simp only [ofMembers, hText, find?_key hKeys hf, Bool.not_true, Bool.false_eq_true, if_false]

/-- A member that is read has text for a name, and is of no field or of one not seen before. -/
theorem ofMembers_cons_eq_some (hKeys : (fields.map key).Nodup) {name : JsonString} {v : Json}
    (h : ofMembers fields seen r ((name, v) :: members) = some r') :
    name.isText = true ∧
      ((∀ f ∈ fields, name ≠ f.key) ∧ ofMembers fields seen r members = some r' ∨
        ∃ f ∈ fields, name = f.key ∧ f.name ∉ seen ∧
          ∃ s, ofMembers fields (f.name :: seen) s members = some r') := by
  by_cases hText : name.isText = true
  · refine ⟨hText, ?_⟩
    by_cases hKnown : ∃ f ∈ fields, name = f.key
    · obtain ⟨f, hf, rfl⟩ := hKnown
      rw [ofMembers_cons_of_mem hKeys hf hText] at h
      split at h
      · cases h
      · next hSeen =>
        obtain ⟨s, -, hRest⟩ := Option.bind_eq_some_iff.mp h
        exact .inr ⟨f, hf, rfl, hSeen, s, hRest⟩
    · have hUnknown : ∀ f ∈ fields, name ≠ f.key := fun f hf hName => hKnown ⟨f, hf, hName⟩
      rw [ofMembers_cons_of_unknown hText hUnknown] at h
      exact .inl ⟨hUnknown, h⟩
  · simp [ofMembers, hText] at h

/-! ### What is refused -/

theorem allText_of_ofMembers (hKeys : (fields.map key).Nodup)
    (h : ofMembers fields seen r members = some r') : AllText members := by
  induction members generalizing seen r with
  | nil => exact List.forall_mem_nil _
  | cons member members ih =>
    obtain ⟨hText, ⟨-, hRest⟩ | ⟨f, -, -, -, s, hRest⟩⟩ := ofMembers_cons_eq_some hKeys h
    · exact List.forall_mem_cons.mpr ⟨hText, ih hRest⟩
    · exact List.forall_mem_cons.mpr ⟨hText, ih hRest⟩

/-- **A field is given at most once**, and not again after it was seen. -/
theorem length_valuesOf_le_one (hKeys : (fields.map key).Nodup)
    (h : ofMembers fields seen r members = some r') {f : RecordField α} (hf : f ∈ fields) :
    (valuesOf f.name members).length ≤ 1 ∧ (f.name ∈ seen → valuesOf f.name members = []) := by
  induction members generalizing seen r with
  | nil => exact ⟨Nat.zero_le 1, fun _ => rfl⟩
  | cons member members ih =>
    obtain ⟨name, v⟩ := member
    obtain ⟨-, ⟨hUnknown, hRest⟩ | ⟨g, hg, rfl, hSeen, s, hRest⟩⟩ := ofMembers_cons_eq_some hKeys h
    · rw [valuesOf_cons_of_ne (hUnknown f hf)]
      exact ih hRest
    · obtain ⟨hOnce, hNever⟩ := ih hRest
      by_cases hName : g.key = f.key
      · obtain rfl := List.inj_on_of_nodup_map hKeys hg hf hName
        rw [valuesOf_cons_key, hNever List.mem_cons_self]
        exact ⟨Nat.le_refl 1, fun hMem => absurd hMem hSeen⟩
      · rw [valuesOf_cons_of_ne hName]
        exact ⟨hOnce, fun hMem => hNever (List.mem_cons_of_mem _ hMem)⟩

/-- **A name that is no text is refused, and so is a field that is given twice.** -/
theorem decode_object_of_flawed (hKeys : (fields.map key).Nodup)
    (h : ¬ AllText members ∨ Repeats (fields.map RecordField.name) members) :
    decode fields r (.object members) = none := by
  cases hDecode : decode fields r (.object members) with
  | none => rfl
  | some r' =>
    obtain hNoText | ⟨name, hName, hTwice⟩ := h
    · exact absurd (allText_of_ofMembers hKeys hDecode) hNoText
    · obtain ⟨f, hf, rfl⟩ := List.mem_map.mp hName
      have hOnce := (length_valuesOf_le_one hKeys hDecode hf).1
      omega

/-! ### What becomes of a record -/

/-- Puts a field as the members give it. -/
def take (members : List (JsonString × Json)) (f : RecordField α) (r : α) : Option α :=
  match valuesOf f.name members with
  | [] => some r
  | v :: _ => f.put v r

/-- Puts all fields as the members give them, one after the other. -/
def takeAll (members : List (JsonString × Json)) : List (RecordField α) → α → Option α
  | [], r => some r
  | f :: fields, r => (f.take members r).bind (takeAll members fields)

/-- It does not matter which of the two is put first. -/
def Commutes (f g : RecordField α) : Prop :=
  ∀ v w r, (f.put v r).bind (g.put w) = (g.put w r).bind (f.put v)

/-- Each of the fields has a name and a place of its own. -/
structure Apart (fields : List (RecordField α)) : Prop where
  keys : (fields.map key).Nodup
  places : fields.Pairwise Commutes

theorem Commutes.take {f g : RecordField α} (h : f.Commutes g) (v : Json) (r : α) :
    (f.put v r).bind (g.take members) = (g.take members r).bind (f.put v) := by
  unfold RecordField.take
  cases valuesOf g.name members with
  | nil => exact Option.bind_fun_some _
  | cons w _ => exact h v w r

theorem takeAll_congr {members' : List (JsonString × Json)}
    (h : ∀ f ∈ fields, valuesOf f.name members = valuesOf f.name members') :
    takeAll members fields = takeAll members' fields := by
  induction fields with
  | nil => rfl
  | cons f fields ih =>
    obtain ⟨hFirst, hLater⟩ := List.forall_mem_cons.mp h
    funext r
    rw [takeAll, takeAll, take, take, hFirst, ih hLater]

theorem takeAll_of_none (h : ∀ f ∈ fields, valuesOf f.name members = []) :
    takeAll members fields r = some r := by
  induction fields with
  | nil => rfl
  | cons f fields ih =>
    obtain ⟨hFirst, hLater⟩ := List.forall_mem_cons.mp h
    rw [takeAll, take, hFirst]
    exact ih hLater

/-- The value that a member gives can be put first. -/
theorem takeAll_cons_key (hApart : Apart fields) {f : RecordField α} (hf : f ∈ fields)
    (hNoMore : valuesOf f.name members = []) (v : Json) :
    takeAll ((f.key, v) :: members) fields r = (f.put v r).bind (takeAll members fields) := by
  induction fields generalizing r with
  | nil => cases hf
  | cons g fields ih =>
    obtain ⟨hKeys, hPlaces⟩ := hApart
    obtain ⟨hKey, hKeys⟩ := List.nodup_cons.mp hKeys
    obtain ⟨hPlace, hPlaces⟩ := List.pairwise_cons.mp hPlaces
    have hOther {g' : RecordField α} (hNot : f.key ≠ g'.key) :
        valuesOf g'.name ((f.key, v) :: members) = valuesOf g'.name members :=
      valuesOf_cons_of_ne hNot v members
    by_cases hSame : f.key = g.key
    · obtain rfl : f = g := by
        rcases List.mem_cons.mp hf with hf | hf
        · exact hf
        · exact absurd (List.mem_map.mpr ⟨f, hf, hSame⟩) hKey
      have hLater : takeAll ((f.key, v) :: members) fields = takeAll members fields :=
        takeAll_congr fun g' hg' =>
          hOther fun hName => hKey (List.mem_map.mpr ⟨g', hg', hName.symm⟩)
      have hTaken (s : α) : f.take members s = some s := by rw [take, hNoMore]
      rw [takeAll, take, valuesOf_cons_key, hLater]
      refine congrArg (f.put v r).bind (funext fun s => ?_)
      rw [takeAll, hTaken, Option.bind_some]
    · have hf : f ∈ fields := (List.mem_cons.mp hf).resolve_left fun h => hSame (congrArg key h)
      have hFirst : g.take ((f.key, v) :: members) = g.take members := by
        funext s
        rw [take, take, hOther hSame]
      have hSwap : f.Commutes g := fun v w r => (hPlace f hf w v r).symm
      calc takeAll ((f.key, v) :: members) (g :: fields) r
          = (g.take members r).bind fun s => (f.put v s).bind (takeAll members fields) := by
            rw [takeAll, hFirst]
            exact congrArg _ (funext fun s => ih ⟨hKeys, hPlaces⟩ hf)
        _ = (f.put v r).bind (takeAll members (g :: fields)) := by
            rw [← Option.bind_assoc, ← hSwap.take v r, Option.bind_assoc]
            rfl

/-- Members without a flaw are read field by field. -/
theorem ofMembers_eq_takeAll (hApart : Apart fields) (hText : AllText members)
    (hOnce : ∀ f ∈ fields, (valuesOf f.name members).length ≤ 1)
    (hFresh : ∀ f ∈ fields, f.name ∈ seen → valuesOf f.name members = []) :
    ofMembers fields seen r members = takeAll members fields r := by
  induction members generalizing seen r with
  | nil => rw [ofMembers, takeAll_of_none fun _ _ => rfl]
  | cons member members ih =>
    obtain ⟨name, v⟩ := member
    obtain ⟨hName, hRest⟩ := List.forall_mem_cons.mp hText
    by_cases hKnown : ∃ f ∈ fields, name = f.key
    · obtain ⟨f, hf, rfl⟩ := hKnown
      have hNew : f.name ∉ seen := by
        intro hSeen
        have hNone := hFresh f hf hSeen
        rw [valuesOf_cons_key] at hNone
        cases hNone
      have hNoMore : valuesOf f.name members = [] := by
        have hLength := hOnce f hf
        rw [valuesOf_cons_key, List.length_cons] at hLength
        exact List.length_eq_zero_iff.mp (by omega)
      have hLater {g : RecordField α} (hg : g ∈ fields) (hOther : g ≠ f) :
          valuesOf g.name ((f.key, v) :: members) = valuesOf g.name members :=
        valuesOf_cons_of_ne
          (fun hSame => hOther (List.inj_on_of_nodup_map hApart.keys hg hf hSame.symm)) v members
      rw [ofMembers_cons_of_mem hApart.keys hf hName, if_neg hNew,
        takeAll_cons_key hApart hf hNoMore]
      refine congrArg (f.put v r).bind (funext fun s => ih hRest ?_ ?_)
      · intro g hg
        by_cases hOther : g = f
        · rw [hOther, hNoMore]
          exact Nat.zero_le 1
        · exact hLater hg hOther ▸ hOnce g hg
      · intro g hg hSeen
        by_cases hOther : g = f
        · rw [hOther]
          exact hNoMore
        · rw [← hLater hg hOther]
          refine hFresh g hg ((List.mem_cons.mp hSeen).resolve_left fun hSame => hOther ?_)
          exact List.inj_on_of_nodup_map hApart.keys hg hf (congrArg JsonString.ofString hSame)
    · have hUnknown : ∀ f ∈ fields, name ≠ f.key := fun f hf hName => hKnown ⟨f, hf, hName⟩
      have hSame : ∀ f ∈ fields, valuesOf f.name ((name, v) :: members) = valuesOf f.name members :=
        fun f hf => valuesOf_cons_of_ne (hUnknown f hf) v members
      rw [ofMembers_cons_of_unknown hName hUnknown, takeAll_congr hSame]
      refine ih hRest (fun f hf => ?_) fun f hf hSeen => ?_
      · exact hSame f hf ▸ hOnce f hf
      · exact hSame f hf ▸ hFresh f hf hSeen

/-- **An object without a flaw is read field by field**, in whatever order its members stand. -/
theorem decode_object (hApart : Apart fields) (hText : AllText members)
    (hOnce : ¬ Repeats (fields.map RecordField.name) members) :
    decode fields r (.object members) = takeAll members fields r := by
  refine ofMembers_eq_takeAll hApart hText (fun f hf => ?_) fun _ _ hSeen => nomatch hSeen
  refine Nat.le_of_not_lt fun hTwice => hOnce ⟨f.name, ?_, hTwice⟩
  exact List.mem_map_of_mem hf

theorem takeAll_eq_none {f : RecordField α} (hf : f ∈ fields) (h : ∀ r, f.take members r = none) :
    takeAll members fields r = none := by
  induction fields generalizing r with
  | nil => cases hf
  | cons g fields ih =>
    rw [takeAll]
    rcases List.mem_cons.mp hf with rfl | hf
    · rw [h, Option.bind_none]
    · exact Option.bind_eq_none_iff.mpr fun _ _ => ih hf

end RecordField

/-! ### Settings -/

variable {α β : Type}

/-- A name stands once among the members, over a spelling of what is given, or not at all if
nothing is given. -/
def Listed (name : String) (Spelling : β → Json → Prop) (given : Option β)
    (members : List (JsonString × Json)) : Prop :=
  match given with
  | none => valuesOf name members = []
  | some b => ∃ v, valuesOf name members = [v] ∧ Spelling b v

theorem Listed.map {γ : Type} {f : β → γ} {name : String} {Spelling : β → Json → Prop}
    {Spelling' : γ → Json → Prop} {given : Option β} {members : List (JsonString × Json)}
    (hSpelling : ∀ b v, Spelling b v → Spelling' (f b) v) (h : Listed name Spelling given members) :
    Listed name Spelling' (given.map f) members := by
  cases given with
  | none => exact h
  | some b =>
    obtain ⟨v, hOne, hb⟩ := h
    exact ⟨v, hOne, hSpelling b v hb⟩

theorem Setting.put_field (setting : Setting α β) (v : Json) (r : α) :
    setting.field.put v r = (setting.read v).map fun b => setting.set b r := rfl

theorem Setting.commutes {γ : Type} {s : Setting α β} {t : Setting α γ}
    (h : ∀ b c r, t.set c (s.set b r) = s.set b (t.set c r)) : s.field.Commutes t.field := by
  intro v w r
  rw [put_field, put_field]
  cases hS : s.read v with
  | none => cases hT : t.read w <;> simp [put_field, hS]
  | some b =>
    cases hT : t.read w with
    | none => simp [put_field, hT]
    | some c => simp [put_field, hS, hT, h b c r]

end LidarSweep.Json
