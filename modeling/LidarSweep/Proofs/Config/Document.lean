import LidarSweep.Config.Document
import LidarSweep.Proofs.Json.Codec

/-!
# What a configuration document gives

A document may give any of the sections and any of their settings, in any order and with other
members among them.  With any lawful codec, reading it lays what is given over the defaults
(`Config.Given.ListedIn.ofJson?`), what was written of a configuration gives it back
(`Config.ofJson?_toJson`), and a document with a section or a setting that stands twice is refused
(`Config.ofJson?_of_repeats`).
-/

namespace LidarSweep

open Json

/-! ### Values in range -/

def Json.IsUInt32 (n : UInt32) (v : Json) : Prop := v = .ofNat n.toNat

def Json.IsUInt64 (n : UInt64) (v : Json) : Prop := v = .ofNat n.toNat

def Json.IsBool (b : Bool) (v : Json) : Prop := v = .bool b

theorem Json.IsUInt32.read (n : UInt32) (v : Json) (h : IsUInt32 n v) : uint32? v = some n := by
  rw [h, uint32?, below?, ofNat, nat?, Option.bind_some, if_pos n.toNat_lt, Option.map_some,
    UInt32.ofNat_toNat]

theorem Json.IsUInt64.read (n : UInt64) (v : Json) (h : IsUInt64 n v) : uint64? v = some n := by
  rw [h, uint64?, below?, ofNat, nat?, Option.bind_some, if_pos n.toNat_lt, Option.map_some,
    UInt64.ofNat_toNat]

theorem Json.IsBool.read (b : Bool) (v : Json) (h : IsBool b v) : bool? v = some b := by
  rw [h, bool?]

theorem Json.isPlain_uint32 (n : UInt32) : IsPlain (.ofNat n.toNat) :=
  .number (Nat.lt_trans n.toNat_lt (by decide))

theorem Json.isPlain_uint64 (n : UInt64) : IsPlain (.ofNat n.toNat) := .number n.toNat_lt

/-! ### Sections -/

variable {codec : Codec}

namespace RecoveryConfig

theorem apart_fields : RecordField.Apart fields where
  keys := by decide
  places := by
    simp only [fields, List.pairwise_cons, List.forall_mem_cons]
    exact ⟨⟨Setting.commutes fun _ _ _ => rfl, Setting.commutes fun _ _ _ => rfl, nofun⟩,
      ⟨Setting.commutes fun _ _ _ => rfl, nofun⟩, nofun, .nil⟩

/-- The settings that a document gives. -/
structure Given where
  maxRestarts : Option UInt32 := none
  noStreamMs : Option UInt64 := none
  interruptMs : Option UInt64 := none

namespace Given

variable {g : Given} {members : List (JsonString × Json)}

def overlay (g : Given) (c : RecoveryConfig) : RecoveryConfig where
  maxRestarts := g.maxRestarts.getD c.maxRestarts
  noStreamMs := g.noStreamMs.getD c.noStreamMs
  interruptMs := g.interruptMs.getD c.interruptMs

/-- These settings stand among the members, each at most once, and whatever else. -/
structure ListedIn (g : Given) (members : List (JsonString × Json)) : Prop where
  text : AllText members
  maxRestarts : Listed "max_recovery_count" IsUInt32 g.maxRestarts members
  noStreamMs : Listed "no_stream_timeout_ms" IsUInt64 g.noStreamMs members
  interruptMs : Listed "stream_interrupt_timeout_ms" IsUInt64 g.interruptMs members

def entries (g : Given) : List (Entry RecoveryConfig) :=
  [⟨maxRestartsSetting, IsUInt32, g.maxRestarts, IsUInt32.read⟩,
    ⟨noStreamSetting, IsUInt64, g.noStreamMs, IsUInt64.read⟩,
    ⟨interruptSetting, IsUInt64, g.interruptMs, IsUInt64.read⟩]

theorem foldl_entries (g : Given) (c : RecoveryConfig) :
    g.entries.foldl (fun r e => e.apply r) c = g.overlay c := by
  obtain ⟨maxRestarts, noStreamMs, interruptMs⟩ := g
  cases maxRestarts <;> cases noStreamMs <;> cases interruptMs <;> rfl

theorem ListedIn.entries (h : g.ListedIn members) : ∀ e ∈ g.entries, e.ListedIn members := by
  simp only [Given.entries, List.forall_mem_cons]
  exact ⟨h.maxRestarts, h.noStreamMs, h.interruptMs, nofun⟩

theorem ListedIn.ofJson? (h : g.ListedIn members) (hCodec : codec.Lawful) :
    ofJson? codec (.object members) = some (g.overlay {}) :=
  (hCodec.decode_of_listed h.entries rfl apart_fields h.text {}).trans
    (congrArg some (g.foldl_entries {}))

end Given

def given (c : RecoveryConfig) : Given :=
  ⟨some c.maxRestarts, some c.noStreamMs, some c.interruptMs⟩

theorem exists_listedIn (c : RecoveryConfig) :
    ∃ members, c.toJson = .object members ∧ c.given.ListedIn members := by
  refine ⟨_, rfl, ?_, ⟨_, rfl, rfl⟩, ⟨_, rfl, rfl⟩, ⟨_, rfl, rfl⟩⟩
  simp only [AllText, List.forall_mem_cons]
  exact ⟨rfl, rfl, rfl, nofun⟩

theorem isPlain_toJson (c : RecoveryConfig) : IsPlain c.toJson := by
  refine .record ?_ ?_
  · simp only [AllText, List.forall_mem_cons]
    exact ⟨rfl, rfl, rfl, nofun⟩
  · simp only [List.forall_mem_cons]
    exact ⟨isPlain_uint32 _, isPlain_uint64 _, isPlain_uint64 _, nofun⟩

end RecoveryConfig

namespace AnomalyConfig

theorem apart_fields : RecordField.Apart fields where
  keys := by decide
  places := by
    simp only [fields, List.pairwise_cons, List.forall_mem_cons]
    exact ⟨⟨Setting.commutes fun _ _ _ => rfl, nofun⟩, nofun, .nil⟩

/-- The settings that a document gives. -/
structure Given where
  enabled : Option Bool := none
  maxGapPeriods : Option UInt32 := none

namespace Given

variable {g : Given} {members : List (JsonString × Json)}

def overlay (g : Given) (c : AnomalyConfig) : AnomalyConfig where
  enabled := g.enabled.getD c.enabled
  maxGapPeriods := g.maxGapPeriods.getD c.maxGapPeriods

/-- These settings stand among the members, each at most once, and whatever else. -/
structure ListedIn (g : Given) (members : List (JsonString × Json)) : Prop where
  text : AllText members
  enabled : Listed "enabled" IsBool g.enabled members
  maxGapPeriods : Listed "max_gap_periods" IsUInt32 g.maxGapPeriods members

def entries (g : Given) : List (Entry AnomalyConfig) :=
  [⟨enabledSetting, IsBool, g.enabled, IsBool.read⟩,
    ⟨maxGapSetting, IsUInt32, g.maxGapPeriods, IsUInt32.read⟩]

theorem foldl_entries (g : Given) (c : AnomalyConfig) :
    g.entries.foldl (fun r e => e.apply r) c = g.overlay c := by
  obtain ⟨enabled, maxGapPeriods⟩ := g
  cases enabled <;> cases maxGapPeriods <;> rfl

theorem ListedIn.entries (h : g.ListedIn members) : ∀ e ∈ g.entries, e.ListedIn members := by
  simp only [Given.entries, List.forall_mem_cons]
  exact ⟨h.enabled, h.maxGapPeriods, nofun⟩

theorem ListedIn.ofJson? (h : g.ListedIn members) (hCodec : codec.Lawful) :
    ofJson? codec (.object members) = some (g.overlay {}) :=
  (hCodec.decode_of_listed h.entries rfl apart_fields h.text {}).trans
    (congrArg some (g.foldl_entries {}))

end Given

def given (c : AnomalyConfig) : Given := ⟨some c.enabled, some c.maxGapPeriods⟩

theorem exists_listedIn (c : AnomalyConfig) :
    ∃ members, c.toJson = .object members ∧ c.given.ListedIn members := by
  refine ⟨_, rfl, ?_, ⟨_, rfl, rfl⟩, ⟨_, rfl, rfl⟩⟩
  simp only [AllText, List.forall_mem_cons]
  exact ⟨rfl, rfl, nofun⟩

theorem isPlain_toJson (c : AnomalyConfig) : IsPlain c.toJson := by
  refine .record ?_ ?_
  · simp only [AllText, List.forall_mem_cons]
    exact ⟨rfl, rfl, nofun⟩
  · simp only [List.forall_mem_cons]
    exact ⟨.bool _, isPlain_uint32 _, nofun⟩

end AnomalyConfig

namespace RecorderConfig

theorem apart_fields : RecordField.Apart fields where
  keys := by decide
  places := List.pairwise_singleton _ _

/-- The setting that a document gives. -/
structure Given where
  queueDepth : Option UInt64 := none

namespace Given

variable {g : Given} {members : List (JsonString × Json)}

def overlay (g : Given) (c : RecorderConfig) : RecorderConfig where
  queueDepth := g.queueDepth.getD c.queueDepth

/-- The setting stands among the members, at most once, and whatever else. -/
structure ListedIn (g : Given) (members : List (JsonString × Json)) : Prop where
  text : AllText members
  queueDepth : Listed "queue_depth" IsUInt64 g.queueDepth members

def entries (g : Given) : List (Entry RecorderConfig) :=
  [⟨queueDepthSetting, IsUInt64, g.queueDepth, IsUInt64.read⟩]

theorem foldl_entries (g : Given) (c : RecorderConfig) :
    g.entries.foldl (fun r e => e.apply r) c = g.overlay c := by
  obtain ⟨queueDepth⟩ := g
  cases queueDepth <;> rfl

theorem ListedIn.entries (h : g.ListedIn members) : ∀ e ∈ g.entries, e.ListedIn members := by
  simp only [Given.entries, List.forall_mem_cons]
  exact ⟨h.queueDepth, nofun⟩

theorem ListedIn.ofJson? (h : g.ListedIn members) (hCodec : codec.Lawful) :
    ofJson? codec (.object members) = some (g.overlay {}) :=
  (hCodec.decode_of_listed h.entries rfl apart_fields h.text {}).trans
    (congrArg some (g.foldl_entries {}))

end Given

def given (c : RecorderConfig) : Given := ⟨some c.queueDepth⟩

theorem exists_listedIn (c : RecorderConfig) :
    ∃ members, c.toJson = .object members ∧ c.given.ListedIn members := by
  refine ⟨_, rfl, ?_, ⟨_, rfl, rfl⟩⟩
  simp only [AllText, List.forall_mem_cons]
  exact ⟨rfl, nofun⟩

theorem isPlain_toJson (c : RecorderConfig) : IsPlain c.toJson := by
  refine .record ?_ ?_
  · simp only [AllText, List.forall_mem_cons]
    exact ⟨rfl, nofun⟩
  · simp only [List.forall_mem_cons]
    exact ⟨isPlain_uint64 _, nofun⟩

end RecorderConfig

/-! ### Documents -/

namespace Config

theorem apart_fields (codec : Codec) : RecordField.Apart (fields codec) where
  keys := by
    have hNames : [JsonString.ofString "recovery", .ofString "anomaly",
        .ofString "recorder"].Nodup := by decide
    exact hNames
  places := by
    simp only [fields, List.pairwise_cons, List.forall_mem_cons]
    exact ⟨⟨Setting.commutes fun _ _ _ => rfl, Setting.commutes fun _ _ _ => rfl, nofun⟩,
      ⟨Setting.commutes fun _ _ _ => rfl, nofun⟩, nofun, .nil⟩

/-- The sections that a document gives, with their settings. -/
structure Given where
  recovery : Option RecoveryConfig.Given := none
  anomaly : Option AnomalyConfig.Given := none
  recorder : Option RecorderConfig.Given := none

namespace Given

variable {g : Given} {members : List (JsonString × Json)}

def overlay (g : Given) (c : Config) : Config where
  recovery := g.recovery.elim c.recovery fun r => r.overlay c.recovery
  anomaly := g.anomaly.elim c.anomaly fun a => a.overlay c.anomaly
  recorder := g.recorder.elim c.recorder fun r => r.overlay c.recorder

/-- These sections stand among the members as objects, each at most once, and whatever else. -/
structure ListedIn (g : Given) (members : List (JsonString × Json)) : Prop where
  text : AllText members
  recovery :
    Listed "recovery" (fun r v => ∃ inner, v = .object inner ∧ r.ListedIn inner) g.recovery members
  anomaly :
    Listed "anomaly" (fun a v => ∃ inner, v = .object inner ∧ a.ListedIn inner) g.anomaly members
  recorder :
    Listed "recorder" (fun r v => ∃ inner, v = .object inner ∧ r.ListedIn inner) g.recorder members

def entries (codec : Codec) (g : Given) : List (Entry Config) :=
  [⟨recoverySetting codec, fun c v => RecoveryConfig.ofJson? codec v = some c,
      g.recovery.map fun r => r.overlay {}, fun _ _ => id⟩,
    ⟨anomalySetting codec, fun c v => AnomalyConfig.ofJson? codec v = some c,
      g.anomaly.map fun a => a.overlay {}, fun _ _ => id⟩,
    ⟨recorderSetting codec, fun c v => RecorderConfig.ofJson? codec v = some c,
      g.recorder.map fun r => r.overlay {}, fun _ _ => id⟩]

theorem foldl_entries (g : Given) :
    (g.entries codec).foldl (fun r e => e.apply r) {} = g.overlay {} := by
  obtain ⟨recovery, anomaly, recorder⟩ := g
  cases recovery <;> cases anomaly <;> cases recorder <;> rfl

theorem ListedIn.entries (h : g.ListedIn members) (hCodec : codec.Lawful) :
    ∀ e ∈ g.entries codec, e.ListedIn members := by
  simp only [Given.entries, List.forall_mem_cons]
  refine ⟨h.recovery.map ?_, h.anomaly.map ?_, h.recorder.map ?_, nofun⟩
  · rintro r _ ⟨inner, rfl, hInner⟩
    exact hInner.ofJson? hCodec
  · rintro a _ ⟨inner, rfl, hInner⟩
    exact hInner.ofJson? hCodec
  · rintro r _ ⟨inner, rfl, hInner⟩
    exact hInner.ofJson? hCodec

theorem ListedIn.ofJson? (h : g.ListedIn members) (hCodec : codec.Lawful) :
    ofJson? codec (.object members) = some (g.overlay {}) :=
  (hCodec.decode_of_listed (h.entries hCodec) rfl (apart_fields codec) h.text {}).trans
    (congrArg some g.foldl_entries)

end Given

def given (c : Config) : Given :=
  ⟨some c.recovery.given, some c.anomaly.given, some c.recorder.given⟩

theorem exists_listedIn (c : Config) :
    ∃ members, c.toJson = .object members ∧ c.given.ListedIn members := by
  refine ⟨_, rfl, ?_, ⟨_, rfl, c.recovery.exists_listedIn⟩, ⟨_, rfl, c.anomaly.exists_listedIn⟩,
    ⟨_, rfl, c.recorder.exists_listedIn⟩⟩
  simp only [AllText, List.forall_mem_cons]
  exact ⟨rfl, rfl, rfl, nofun⟩

theorem isPlain_toJson (c : Config) : IsPlain c.toJson := by
  refine .record ?_ ?_
  · simp only [AllText, List.forall_mem_cons]
    exact ⟨rfl, rfl, rfl, nofun⟩
  · simp only [List.forall_mem_cons]
    exact ⟨c.recovery.isPlain_toJson, c.anomaly.isPlain_toJson, c.recorder.isPlain_toJson, nofun⟩

theorem ofJson?_toJson (hCodec : codec.Lawful) (c : Config) : ofJson? codec c.toJson = some c := by
  obtain ⟨members, hObject, hListed⟩ := c.exists_listedIn
  rw [hObject, hListed.ofJson? hCodec]
  rfl

/-! ### Names given twice -/

/-- The sections, and the names of their settings. -/
def sections : List (String × List String) :=
  [("recovery", ["max_recovery_count", "no_stream_timeout_ms", "stream_interrupt_timeout_ms"]),
    ("anomaly", ["enabled", "max_gap_periods"]),
    ("recorder", ["queue_depth"])]

/-- A section is given twice, or some section gives one of its settings twice. -/
def RepeatsKnown (members : List (JsonString × Json)) : Prop :=
  Repeats (sections.map Prod.fst) members ∨
    ∃ s ∈ sections, ∃ inner, .object inner ∈ valuesOf s.1 members ∧ Repeats s.2 inner

theorem ofJson?_of_repeats (hCodec : codec.Lawful) {members : List (JsonString × Json)}
    (h : RepeatsKnown members) : ofJson? codec (.object members) = none := by
  have hApart := apart_fields codec
  obtain hTwice | ⟨s, hs, inner, hInner, hTwice⟩ := h
  · exact hCodec.refuses hApart (.inr hTwice)
  · simp only [sections, List.mem_cons, List.not_mem_nil, or_false] at hs
    obtain rfl | rfl | rfl := hs
    · have hRefused : RecoveryConfig.ofJson? codec (.object inner) = none :=
        hCodec.refuses RecoveryConfig.apart_fields (.inr hTwice)
      exact hCodec.decode_of_unread hApart (recoverySetting codec) (by simp [fields]) hInner
        hRefused {}
    · have hRefused : AnomalyConfig.ofJson? codec (.object inner) = none :=
        hCodec.refuses AnomalyConfig.apart_fields (.inr hTwice)
      exact hCodec.decode_of_unread hApart (anomalySetting codec) (by simp [fields]) hInner
        hRefused {}
    · have hRefused : RecorderConfig.ofJson? codec (.object inner) = none :=
        hCodec.refuses RecorderConfig.apart_fields (.inr hTwice)
      exact hCodec.decode_of_unread hApart (recorderSetting codec) (by simp [fields]) hInner
        hRefused {}

/-! ### Texts -/

theorem ofTextWith_of_some {text : String} {v : Json} {c : Config}
    (hRead : codec.read? text = some v) (hValue : ofJson? codec v = some c) :
    ofTextWith codec text = .ok c := by
  rw [ofTextWith, hRead, Option.bind_some, hValue]

theorem ofTextWith_of_none {text : String} {v : Json} (hRead : codec.read? text = some v)
    (hValue : ofJson? codec v = none) :
    ofTextWith codec text = .error (.json "invalid configuration") := by
  rw [ofTextWith, hRead, Option.bind_some, hValue]

/-- **What a document gives is laid over the defaults**, whatever lawful codec it is read with.  A
printed configuration is read back, any listing of settings is taken as it stands, and a known name
that stands twice is refused. -/
theorem ofText_of_document (hCodec : codec.Lawful) :
    (∀ c : Config, ofTextWith codec (c.toTextWith codec) = .ok c) ∧
      (∀ (g : Given) (members : List (JsonString × Json)) (text : String), g.ListedIn members →
        IsDocument text (.object members) → ofTextWith codec text = .ok (g.overlay {})) ∧
      ∀ (members : List (JsonString × Json)) (text : String), RepeatsKnown members →
        IsDocument text (.object members) → ∃ e, ofTextWith codec text = .error e := by
  refine ⟨fun c => ?_, fun g members text hListed hText => ?_, fun members text hTwice hText => ?_⟩
  · exact ofTextWith_of_some (hCodec.reads (hCodec.prints c.isPlain_toJson))
      (ofJson?_toJson hCodec c)
  · exact ofTextWith_of_some (hCodec.reads hText) (hListed.ofJson? hCodec)
  · exact ⟨_, ofTextWith_of_none (hCodec.reads hText) (ofJson?_of_repeats hCodec hTwice)⟩

/-- With the codec of this library a printed configuration is read back, one setting is found beside
an unknown name, and a section that stands twice is refused. -/
theorem ofText_of_document_partial :
    Json.codec.Lawful ∧ (∀ c : Config, ofText c.toText = .ok c) ∧
      ofText (Json.object [(.ofString "extra", .array [.null]),
        (.ofString "recovery", .object [(.ofString "max_recovery_count", .ofNat 7)])]).print =
          .ok { recovery := { maxRestarts := 7 } } ∧
      ∃ e, ofText (Json.object [(.ofString "recorder", .object []),
        (.ofString "recorder", .object [])]).print = .error e := by
  have hSection : RecoveryConfig.Given.ListedIn { maxRestarts := some 7 }
      [(.ofString "max_recovery_count", .ofNat 7)] :=
    ⟨by simp only [AllText, List.forall_mem_cons]; exact ⟨rfl, nofun⟩, ⟨_, rfl, rfl⟩, rfl, rfl⟩
  have hListed : Given.ListedIn { recovery := some { maxRestarts := some 7 } }
      [(.ofString "extra", .array [.null]),
        (.ofString "recovery", .object [(.ofString "max_recovery_count", .ofNat 7)])] :=
    ⟨by simp only [AllText, List.forall_mem_cons]; exact ⟨rfl, rfl, nofun⟩,
      ⟨_, rfl, _, rfl, hSection⟩, rfl, rfl⟩
  have hTwice : RepeatsKnown [(.ofString "recorder", .object []),
      (.ofString "recorder", .object [])] :=
    .inl ⟨"recorder", by decide, by decide⟩
  obtain ⟨hBack, hGiven, hRefused⟩ := ofText_of_document codec_lawful
  exact ⟨codec_lawful, hBack, hGiven _ _ _ hListed (isDocument_print _),
    hRefused _ _ hTwice (isDocument_print _)⟩

end Config

end LidarSweep
