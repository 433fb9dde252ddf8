import LidarSweep.Frame.Metadata

/-!
# What frames carry of a header

A field of a header is sound, and then its number goes along, or it fails the frame.  So a list of
keys is told by its first unsound field, and if it has none by the keys that are in it: neither
their order nor their repetitions show in what a frame carries (`MetadataKey.values_of_sound`,
`MetadataKey.values_of_unsound`).
-/

namespace LidarSweep

namespace SyncMode

theorem code_of_ofCode? {code : UInt8} {mode : SyncMode} (h : ofCode? code = some mode) :
    mode.code = code := by
  unfold ofCode? at h
  split at h <;> cases h <;> rfl

theorem ofCode?_eq_none_iff {code : UInt8} : ofCode? code = none ↔ 5 < code.toNat := by
  constructor
  · intro hNone
    unfold ofCode? at hNone
    split at hNone
    case h_7 h0 h1 h2 h3 h4 h5 =>
      simp only [imp_false, ← UInt8.toNat_inj] at h0 h1 h2 h3 h4 h5
      simp at h0 h1 h2 h3 h4 h5
      omega
    all_goals cases hNone
  · intro hLarge
    cases hMode : ofCode? code with
    | none => rfl
    | some mode =>
      rw [← code_of_ofCode? hMode] at hLarge
      cases mode <;> exact absurd hLarge (by decide)

end SyncMode

/-- A number that leaves the sign's bit free is read alike with and without a sign. -/
theorem toInt_toInt64 {n : UInt64} (hn : n.toNat < 0x8000000000000000) :
    n.toInt64.toInt = n.toNat := by
  have hBits : n.toInt64.toInt = n.toBitVec.toInt := rfl
  rw [hBits, BitVec.toInt_eq_toNat_of_lt (by rw [UInt64.toNat_toBitVec]; omega)]
  rfl

namespace MetadataKey

variable {h : Header} {key : MetadataKey} {keys : List MetadataKey} {m : Metadata} {e : Error}

/-! ### One key -/

/-- The number that stands in the header for a key. -/
def field (h : Header) : MetadataKey → Int
  | sweepIndex => h.sweep.toNat
  | modelCode => h.modelCode.toNat
  | syncMode => h.syncCode.toNat
  | warningFlags => h.warnings.toNat
  | scanSpeed => h.scanSpeed.toNat
  | verticalRate => h.verticalRate.toNat
  | temperature => h.temperature.toInt
  | wireTimestamp => h.wireTimeUs.toNat

/-- There are six sync modes, and a device time is below `2 ^ 63`. -/
def IsSound (h : Header) : MetadataKey → Prop
  | syncMode => h.syncCode.toNat ≤ 5
  | wireTimestamp => h.wireTimeUs.toNat < 0x8000000000000000
  | _ => True

theorem value_of_isSound (hSound : key.IsSound h) : key.value h = .ok (key.field h) := by
  cases key with
  | syncMode =>
    cases hMode : SyncMode.ofCode? h.syncCode with
    | none => exact absurd (SyncMode.ofCode?_eq_none_iff.mp hMode) (Nat.not_lt.mpr hSound)
    | some mode => simp only [value, hMode, field, SyncMode.code_of_ofCode? hMode]
  | wireTimestamp => exact if_pos hSound
  | _ => rfl

theorem exists_value_of_not_isSound (hUnsound : ¬ key.IsSound h) : ∃ e, key.value h = .error e := by
  cases key with
  | syncMode =>
    have hNone := SyncMode.ofCode?_eq_none_iff.mpr (Nat.not_le.mp hUnsound)
    exact ⟨.invalidPacket (.unknownSyncMode h.syncCode), by simp only [value, hNone]⟩
  | wireTimestamp => exact ⟨_, if_neg hUnsound⟩
  | _ => exact absurd trivial hUnsound

theorem isSound_iff : key.IsSound h ↔ ∃ v, key.value h = .ok v := by
  constructor
  · intro hSound
    exact ⟨_, value_of_isSound hSound⟩
  · rintro ⟨v, hValue⟩
    by_cases hSound : key.IsSound h
    · exact hSound
    · obtain ⟨e, hError⟩ := exists_value_of_not_isSound hSound
      rw [hError] at hValue
      cases hValue

/-- The value in 64 bits with a sign, to which every field is widened.  Only the device time can be
too large for them. -/
def word (h : Header) : MetadataKey → Except Error Int64
  | sweepIndex => .ok h.sweep.toUInt64.toInt64
  | modelCode => .ok h.modelCode.toUInt64.toInt64
  | syncMode =>
    match SyncMode.ofCode? h.syncCode with
    | some mode => .ok mode.code.toUInt64.toInt64
    | none => .error (.invalidPacket (.unknownSyncMode h.syncCode))
  | warningFlags => .ok h.warnings.toUInt64.toInt64
  | scanSpeed => .ok h.scanSpeed.toUInt64.toInt64
  | verticalRate => .ok h.verticalRate.toUInt64.toInt64
  | temperature => .ok h.temperature.toInt64
  | wireTimestamp =>
    if h.wireTimeUs ≤ Int64.maxValue.toUInt64 then .ok h.wireTimeUs.toInt64
    else .error (.invalidPacket (.wireTimeOutOfRange h.wireTimeUs))

/-- No widening changes a number. -/
theorem map_toInt_word (h : Header) (key : MetadataKey) :
    (key.word h).map Int64.toInt = key.value h := by
  have hByte (n : UInt8) : n.toUInt64.toInt64.toInt = n.toNat := toInt_toInt64 (by
    have := n.toNat_lt
    rw [UInt8.toNat_toUInt64]
    omega)
  have hShort (n : UInt16) : n.toUInt64.toInt64.toInt = n.toNat := toInt_toInt64 (by
    have := n.toNat_lt
    rw [UInt16.toNat_toUInt64]
    omega)
  have hLong (n : UInt32) : n.toUInt64.toInt64.toInt = n.toNat := toInt_toInt64 (by
    have := n.toNat_lt
    rw [UInt32.toNat_toUInt64]
    omega)
  cases key with
  | sweepIndex => simp only [word, value, Except.map, hLong]
  | modelCode => simp only [word, value, Except.map, hShort]
  | syncMode =>
    cases hMode : SyncMode.ofCode? h.syncCode with
    | none => simp only [word, value, hMode, Except.map]
    | some mode => simp only [word, value, hMode, Except.map, hByte]
  | warningFlags => simp only [word, value, Except.map, hShort]
  | scanSpeed => simp only [word, value, Except.map, hShort]
  | verticalRate => simp only [word, value, Except.map, hShort]
  | temperature => simp only [word, value, Except.map, Int16.toInt_toInt64]
  | wireTimestamp =>
    have hLimit : h.wireTimeUs ≤ Int64.maxValue.toUInt64 ↔
        h.wireTimeUs.toNat < 0x8000000000000000 := Nat.lt_succ_iff.symm
    by_cases hTime : h.wireTimeUs.toNat < 0x8000000000000000
    · simp only [word, value, if_pos hTime, if_pos (hLimit.mpr hTime), Except.map,
        toInt_toInt64 hTime]
    · simp only [word, value, if_neg hTime, if_neg (mt hLimit.mp hTime), Except.map]

/-! ### Key after key -/

/-- The values of `keys` over those that are there. -/
def gather (keys : List MetadataKey) (h : Header) (m : Metadata) : Except Error Metadata :=
  keys.foldlM (fun m key => (m.insert key ·) <$> key.value h) m

theorem gather_cons (key : MetadataKey) (keys : List MetadataKey) (h : Header) (m : Metadata) :
    gather (key :: keys) h m =
      match key.value h with
      | .ok v => gather keys h (m.insert key v)
      | .error e => .error e := by
  rw [gather, List.foldlM_cons]
  cases key.value h <;> rfl

theorem gather_append {front : List MetadataKey} (hSound : ∀ key ∈ front, key.IsSound h)
    (keys : List MetadataKey) (m : Metadata) :
    gather (front ++ keys) h m =
      gather keys h ⟨fun key => if key ∈ front then some (key.field h) else m.get? key⟩ := by
  induction front generalizing m with
  | nil => rfl
  | cons first front ih =>
    rw [List.cons_append, gather_cons, value_of_isSound (hSound first List.mem_cons_self)]
    simp only
    rw [ih fun key hKey => hSound key (List.mem_cons_of_mem _ hKey)]
    congr 2
    funext key
    by_cases hFront : key ∈ front
    · rw [if_pos hFront, if_pos (List.mem_cons_of_mem _ hFront)]
    · by_cases hFirst : key = first
      · subst hFirst
        rw [if_neg hFront, if_pos List.mem_cons_self]
        exact if_pos rfl
      · rw [if_neg hFront, if_neg (by simp [hFirst, hFront])]
        exact if_neg hFirst

/-- What a list of keys takes from a header whose fields are sound. -/
def chosen (keys : List MetadataKey) (h : Header) : Metadata :=
  ⟨fun key => if key ∈ keys then some (key.field h) else none⟩

theorem values_of_sound (hSound : ∀ key ∈ keys, key.IsSound h) :
    values keys h = .ok (chosen keys h) := by
  have hWhole := gather_append hSound [] .empty
  rwa [List.append_nil] at hWhole

theorem values_of_unsound {before : List MetadataKey} (hBefore : ∀ k ∈ before, k.IsSound h)
    (hKey : key.value h = .error e) (after : List MetadataKey) :
    values (before ++ key :: after) h = .error e := by
  have hRest := gather_append hBefore (key :: after) .empty
  rw [gather_cons, hKey] at hRest
  exact hRest

/-- All of the keys have sound fields, or there is a first that has not. -/
theorem cases_of_keys (keys : List MetadataKey) (h : Header) :
    (∀ key ∈ keys, key.IsSound h) ∨
      ∃ before key after e, keys = before ++ key :: after ∧ (∀ k ∈ before, k.IsSound h) ∧
        key.value h = .error e := by
  induction keys with
  | nil => exact .inl fun _ hKey => nomatch hKey
  | cons first keys ih =>
    by_cases hFirst : first.IsSound h
    · rcases ih with hAll | ⟨before, key, after, e, rfl, hBefore, hKey⟩
      · exact .inl (List.forall_mem_cons.mpr ⟨hFirst, hAll⟩)
      · exact .inr ⟨first :: before, key, after, e, rfl,
          List.forall_mem_cons.mpr ⟨hFirst, hBefore⟩, hKey⟩
    · obtain ⟨e, hError⟩ := exists_value_of_not_isSound hFirst
      exact .inr ⟨[], first, keys, e, rfl, fun _ hKey => (nomatch hKey), hError⟩

theorem values_eq_ok_iff :
    values keys h = .ok m ↔ (∀ key ∈ keys, key.IsSound h) ∧ m = chosen keys h := by
  constructor
  · intro hOk
    obtain hSound | ⟨before, key, after, e, rfl, hBefore, hKey⟩ := cases_of_keys keys h
    · rw [values_of_sound hSound] at hOk
      cases hOk
      exact ⟨hSound, rfl⟩
    · rw [values_of_unsound hBefore hKey] at hOk
      cases hOk
  · rintro ⟨hSound, rfl⟩
    exact values_of_sound hSound

theorem values_eq_error_iff :
    values keys h = .error e ↔
      ∃ before key after, keys = before ++ key :: after ∧ (∀ k ∈ before, k.IsSound h) ∧
        key.value h = .error e := by
  constructor
  · intro hError
    obtain hSound | ⟨before, key, after, e', rfl, hBefore, hKey⟩ := cases_of_keys keys h
    · rw [values_of_sound hSound] at hError
      cases hError
    · rw [values_of_unsound hBefore hKey] at hError
      cases hError
      exact ⟨before, key, after, rfl, hBefore, hKey⟩
  · rintro ⟨before, key, after, rfl, hBefore, hKey⟩
    exact values_of_unsound hBefore hKey after

/-- Only two of the fields can be unsound. -/
theorem forall_isSound_iff :
    (∀ key ∈ keys, key.IsSound h) ↔
      (syncMode ∈ keys → h.syncCode.toNat ≤ 5) ∧
        (wireTimestamp ∈ keys → h.wireTimeUs.toNat < 0x8000000000000000) := by
  constructor
  · intro hSound
    exact ⟨hSound syncMode, hSound wireTimestamp⟩
  · rintro ⟨hMode, hTime⟩ key hKey
    cases key with
    | syncMode => exact hMode hKey
    | wireTimestamp => exact hTime hKey
    | _ => trivial

theorem chosen_congr {other : List MetadataKey} (hSame : ∀ key, key ∈ other ↔ key ∈ keys)
    (h : Header) : chosen other h = chosen keys h := by
  simp only [chosen, hSame]

/-- **What a list of declared keys gives.**  There are values unless a sync mode is asked for that
is unknown, or a device time that is too large; otherwise the first such key says what is wrong.
The values are those of the declared keys, each the number in the header, and the same for any list
of the same keys.  In 64 bits with a sign nothing is different. -/
theorem values_of_declared (keys : List MetadataKey) (h : Header) :
    ((∃ m, values keys h = .ok m) ↔
      (syncMode ∈ keys → h.syncCode.toNat ≤ 5) ∧
        (wireTimestamp ∈ keys → h.wireTimeUs.toNat < 0x8000000000000000)) ∧
    (∀ e, values keys h = .error e ↔
      ∃ before key after, keys = before ++ key :: after ∧
        (∀ k ∈ before, ∃ v, k.value h = .ok v) ∧ key.value h = .error e) ∧
    (∀ m, values keys h = .ok m →
      ∀ key, m.get? key = if key ∈ keys then some (key.field h) else none) ∧
    (∀ other, (∀ key, key ∈ other ↔ key ∈ keys) →
      ∀ m, values other h = .ok m ↔ values keys h = .ok m) ∧
    ∀ key : MetadataKey, (key.word h).map Int64.toInt = key.value h := by
  refine ⟨?_, ?_, ?_, ?_, map_toInt_word h⟩
  · rw [← forall_isSound_iff]
    constructor
    · rintro ⟨m, hOk⟩
      exact (values_eq_ok_iff.mp hOk).1
    · intro hSound
      exact ⟨_, values_of_sound hSound⟩
  · intro e
    simp only [values_eq_error_iff, isSound_iff]
  · intro m hOk key
    rw [(values_eq_ok_iff.mp hOk).2]
    rfl
  · intro other hSame m
    rw [values_eq_ok_iff, values_eq_ok_iff, chosen_congr hSame]
    simp only [hSame]

/-- Both fields are unsound, and the key that was declared first is the one complained about. -/
example (h : Header) :
    values [temperature, wireTimestamp, temperature, syncMode]
        { h with syncCode := 9, wireTimeUs := 0xffffffffffffffff } =
      .error (.invalidPacket (.wireTimeOutOfRange 0xffffffffffffffff)) := rfl

end MetadataKey

end LidarSweep
