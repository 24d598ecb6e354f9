import NexusMainframe.Http.ConfigController

/-!
# Configuration files with values of any type

A configuration is read from a file field by field, and a field that cannot be read ends the
reading. So the file is taken over up to that field only: what stands in front of it has been
applied, and what stands behind it has not, whatever its type.
-/

namespace NexusMainframe

namespace NexusConfig

open ConfigController (named RightType Fits fits_value)

/-- Each field that the file has with the right type has the file's value, and each other one
has its default. -/
def Takes (j : Json) (cfg : NexusConfig) : Prop :=
  ∀ f : Field,
    (∀ v, named j f = some v → RightType v f → f.value cfg = v)
      ∧ ((∀ v, named j f = some v → ¬ RightType v f) → f.value cfg = f.value default)

/-- The default configuration, or one with all that the file has. -/
def Whole (j : Json) (cfg : NexusConfig) : Prop :=
  cfg = default ∨ Takes j cfg

/-! ### The fields that are read -/

/-- The group of a field is absent or an object, and so is the field absent or of a type that
is converted. -/
def readable (truncate : UInt64 → Int32) (j : Json) (f : Field) : Bool :=
  match j.member f.group with
  | none => true
  | some (.object members) =>
      match members.lookup f.key with
      | none => true
      | some v => (f.convert truncate v).isSome
  | some _ => false

/-- The fields in front of the first that cannot be read. -/
def fieldsRead (truncate : UInt64 → Int32) (j : Json) : List Field :=
  Field.all.takeWhile (readable truncate j)

section

variable {truncate : UInt64 → Int32} {j : Json} {cfg cfg' : NexusConfig} {f : Field}

/-- A field that can be read is assigned what the file has for it. -/
theorem readField_of_readable (h : readable truncate j f = true) :
  readField truncate j cfg f = assign truncate (named j) cfg f
  := by
  unfold readable at h
  unfold readField assign named
  cases hgroup : j.member f.group with
  | none => rfl
  | some v =>
      rw [hgroup] at h
      cases v with
      | object members => rfl
      | _ => cases h

theorem exists_assign_of_readable (h : readable truncate j f = true) (cfg : NexusConfig) :
  ∃ cfg', assign truncate (named j) cfg f = some cfg'
  := by
  unfold assign
  cases hnamed : named j f with
  | none => exact ⟨cfg, rfl⟩
  | some v =>
      apply Option.ne_none_iff_exists'.mp
      rw [Ne, Field.set_eq_none]
      obtain ⟨group, hgroup, hv⟩ := Option.bind_eq_some_iff.mp hnamed
      obtain ⟨members, rfl⟩ := Json.exists_object_of_member hv
      have hv : members.lookup f.key = some v := hv
      intro hnone
      rw [readable, hgroup] at h
      dsimp only at h
      rw [hv] at h
      dsimp only at h
      rw [hnone] at h
      cases h

theorem readField_of_not_readable (h : readable truncate j f = false) :
  readField truncate j cfg f = none
  := by
  unfold readable at h
  unfold readField
  cases hgroup : j.member f.group with
  | none =>
      rw [hgroup] at h
      cases h
  | some v =>
      rw [hgroup] at h
      cases v with
      | object members =>
          dsimp only at h ⊢
          cases hv : members.lookup f.key with
          | none =>
              rw [hv] at h
              cases h
          | some v =>
              rw [hv] at h
              apply Field.set_eq_none.mpr
              simpa using h
      | _ => rfl

/-- The reading comes to the assignment of the fields in front of the first that cannot be
read. -/
theorem eachField_takeWhile (fields : List Field) (cfg : NexusConfig) :
  eachField (assign truncate (named j)) (fields.takeWhile (readable truncate j)) cfg
    = .ok (match eachField (readField truncate j) fields cfg with
      | .ok cfg => cfg
      | .error cfg => cfg)
  := by
  induction fields generalizing cfg with
  | nil => rfl
  | cons f fields ih =>
      cases h : readable truncate j f with
      | false =>
          rw [List.takeWhile_cons_of_neg (by simp [h]), eachField, eachField,
            readField_of_not_readable h]
      | true =>
          obtain ⟨cfg', hcfg'⟩ := exists_assign_of_readable h cfg
          rw [List.takeWhile_cons_of_pos h, eachField, eachField, readField_of_readable h, hcfg']
          apply ih

theorem eachField_fieldsRead (truncate : UInt64 → Int32) (j : Json) :
  eachField (assign truncate (named j)) (fieldsRead truncate j) default = .ok (ofJson truncate j)
  := eachField_takeWhile Field.all default

theorem nodup_fieldsRead : (fieldsRead truncate j).Nodup := by
  apply Field.nodup_all.sublist (List.takeWhile_sublist _)

/-- A field that is read and that the file has is converted. -/
theorem value_of_mem
    (hf : f ∈ fieldsRead truncate j) {v : Json} (hv : named j f = some v) :
  f.convert truncate v = some (f.value (ofJson truncate j))
  := (value_eachField nodup_fieldsRead (eachField_fieldsRead truncate j)).1 f hf v hv

/-- A field that is not read, or that the file does not have, has its default. -/
theorem value_of_notMem (h : f ∈ fieldsRead truncate j → named j f = none) :
  f.value (ofJson truncate j) = f.value default
  := (value_eachField nodup_fieldsRead (eachField_fieldsRead truncate j)).2 f h

/-! ### When the file is taken over -/

/-- The value that the file has for a field, if any, is converted to the default. -/
def Defaults (truncate : UInt64 → Int32) (j : Json) (f : Field) : Prop :=
  ∀ v, named j f = some v → f.convert truncate v = some (f.value default)

/-- Every field that is read is absent or converted to its default. -/
def ReadsDefaults (truncate : UInt64 → Int32) (j : Json) : Prop :=
  ∀ f ∈ fieldsRead truncate j, Defaults truncate j f

/-- Every field that is read is absent, fits, or is of another type and is converted to its
default; and every other one is absent, of another type, or has its default. -/
def ReadsAll (truncate : UInt64 → Int32) (j : Json) : Prop :=
  ∀ f v, named j f = some v →
    (f ∈ fieldsRead truncate j →
      (RightType v f → Fits v f)
        ∧ (¬ RightType v f → f.convert truncate v = some (f.value default)))
    ∧ (f ∉ fieldsRead truncate j → RightType v f → v = f.value default)

theorem ofJson_eq_default_iff :
  ofJson truncate j = default ↔ ReadsDefaults truncate j
  := by
  constructor
  · intro h f hf v hv
    rw [value_of_mem hf hv, h]
  · intro h
    apply ext_value
    intro f
    by_cases hf : f ∈ fieldsRead truncate j
    · cases hv : named j f with
      | none => apply value_of_notMem fun _ => hv
      | some v =>
          apply Option.some.inj
          rw [← value_of_mem hf hv, h f hf v hv]
    · apply value_of_notMem fun hmem => absurd hmem hf

/-- A value that is converted to itself fits. -/
theorem fits_of_convert {v : Json} (h : f.convert truncate v = some v) :
  Fits v f
  := by
  cases f
  all_goals
    obtain ⟨x, -, rfl⟩ := Option.map_eq_some_iff.mp h
    first
      | exact ⟨x, rfl⟩
      | exact ⟨x.toInt, rfl, x.le_toInt, x.toInt_lt⟩

theorem takes_ofJson_iff :
  Takes j (ofJson truncate j) ↔ ReadsAll truncate j
  := by
  constructor
  · intro h f v hv
    constructor
    · intro hf
      constructor
      · intro hright
        apply fits_of_convert
        rw [value_of_mem hf hv, (h f).1 v hv hright]
      · intro hwrong
        rw [value_of_mem hf hv, (h f).2]
        intro v' hv'
        rw [hv] at hv'
        cases hv'
        apply hwrong
    · intro hf hright
      rw [← (h f).1 v hv hright]
      apply value_of_notMem fun hmem => absurd hmem hf
  · intro h f
    constructor
    · intro v hv hright
      by_cases hf : f ∈ fieldsRead truncate j
      · apply Option.some.inj
        rw [← value_of_mem hf hv, (((h f v hv).1 hf).1 hright).convert]
      · rw [(h f v hv).2 hf hright]
        apply value_of_notMem fun hmem => absurd hmem hf
    · intro hwrong
      by_cases hf : f ∈ fieldsRead truncate j
      · cases hv : named j f with
        | none => apply value_of_notMem fun _ => hv
        | some v =>
            apply Option.some.inj
            rw [← value_of_mem hf hv, ((h f v hv).1 hf).2 (hwrong v hv)]
      · apply value_of_notMem fun hmem => absurd hmem hf

end

/-- A file is taken over as a whole, or not at all, just if the fields in front of the first
that cannot be read leave the defaults, or they are all that the file has. -/
theorem loadOrCreate_whole_iff
    (c : Json.Codec) (truncate : UInt64 → Int32) {text : Bytes} {j : Json}
    (h : c.parse text = some j) :
  Whole j (loadOrCreate c truncate (some text)).1
    ↔ ReadsDefaults truncate j ∨ ReadsAll truncate j
  := by
  have hload : (loadOrCreate c truncate (some text)).1 = ofJson truncate j := by
    rw [loadOrCreate, h]
  rw [hload, Whole, ofJson_eq_default_iff, takes_ofJson_iff]

/-- A file with three of the fields. -/
def hostFile : Json :=
  .object
    [(Bytes.ofAscii "http", .object [(Bytes.ofAscii "port", .integer 9090)]),
      (Bytes.ofAscii "mqtt", .object
        [(Bytes.ofAscii "host", .string (Bytes.ofAscii "mybroker")),
          (Bytes.ofAscii "port", .integer 1884)])]

theorem readsAll_hostFile :
  ReadsAll (fun _ => 0) hostFile
  := by
  intro f v hv
  have hmem : f ∈ fieldsRead (fun _ => 0) hostFile := by
    cases f <;> decide +kernel
  refine ⟨fun _ => ⟨?_, ?_⟩, fun hnot => absurd hmem hnot⟩
  · intro _
    cases f <;> cases hv
    · exact ⟨_, rfl⟩
    · simp [Fits]
    · simp [Fits]
  · intro hwrong
    cases f <;> cases hv <;> exact absurd ⟨_, rfl⟩ hwrong

theorem loadOrCreate_whole_iff_hostFile :
  Whole hostFile
    (loadOrCreate (JsonText.codec 2) (fun _ => 0) (some (JsonText.print 2 0 hostFile))).1
  := by
  have hparse : (JsonText.codec 2).parse (JsonText.print 2 0 hostFile) = some hostFile :=
    JsonText.codec_parse_print (by decide +kernel) (by decide +kernel) 2
  apply (loadOrCreate_whole_iff (JsonText.codec 2) (fun _ => 0) hparse).mpr
  right
  apply readsAll_hostFile

/-- A file whose second field cannot be read. -/
def portFile : Json :=
  .object
    [(Bytes.ofAscii "http", .object [(Bytes.ofAscii "port", .integer 9090)]),
      (Bytes.ofAscii "mqtt", .object
        [(Bytes.ofAscii "host", .string (Bytes.ofAscii "mybroker")),
          (Bytes.ofAscii "port", .string (Bytes.ofAscii "high"))])]

/-- The host is applied, and the port of the HTTP server is not. -/
theorem not_whole :
  ¬ ∀ (c : Json.Codec), c.Spec → ∀ (truncate : UInt64 → Int32) (text : Bytes) (j : Json),
      c.parse text = some j → Whole j (loadOrCreate c truncate (some text)).1
  := by
  intro h
  have hparse : (JsonText.codec 2).parse (JsonText.print 2 0 portFile) = some portFile :=
    JsonText.codec_parse_print (by decide +kernel) (by decide +kernel) 2
  have hhost : ofJson (fun _ => 0) portFile ≠ default := by
    decide +kernel
  have hport : Field.httpPort.value (ofJson (fun _ => 0) portFile) = .integer 8080 := by
    rfl
  have hwhole := h _ (JsonText.codec_spec 2) (fun _ => 0) _ _ hparse
  rw [loadOrCreate, hparse] at hwhole
  rcases hwhole with hdefault | htakes
  · apply hhost hdefault
  · have htaken := (htakes .httpPort).1 (.integer 9090) rfl ⟨9090, rfl⟩
    rw [hport] at htaken
    cases htaken

end NexusConfig

end NexusMainframe
