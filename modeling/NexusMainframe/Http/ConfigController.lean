import NexusMainframe.Config.NexusConfig
import NexusMainframe.Lib.JsonText
import NexusMainframe.Result.Result
import Mathlib.Data.List.Nodup

/-!
# Changing the configuration

A request to change the configuration has a JSON body that names some of the fields. They
are assigned one after another, and then the configuration is saved. A value that cannot be
converted makes the assignment throw, with the fields before it already assigned; a port is
converted from any number, and from a boolean.
-/

namespace NexusMainframe

/-- The configuration in memory and the text of its file. -/
structure ConfigController where
  config : NexusConfig
  file : Option Bytes

namespace ConfigController

open NexusConfig

/-- The value that a request body names a field with. -/
def named (body : Json) (f : Field) : Option Json :=
  (body.member f.group).bind (Json.member f.key)

/-- The fields that take effect after a restart, as the response lists them. -/
def restartRequired (body : Json) : List Json :=
  Field.all.filterMap fun f =>
    (named body f).map fun _ => .string (f.group ++ Bytes.ofAscii "." ++ f.key)

/-- The value of the response to a change that has been made. -/
def response (cfg : NexusConfig) (body : Json) : Json :=
  .object <|
    (Bytes.ofAscii "config", cfg.toJson) ::
      if restartRequired body = [] then [(Bytes.ofAscii "success", .boolean true)]
      else
        [(Bytes.ofAscii "restart_required", .array (restartRequired body)),
          (Bytes.ofAscii "success", .boolean true)]

/-- `update` on a request with a body: the state after it, and the status and the value of
the response, unless the handler throws. -/
def update (c : Json.Codec) (truncate : UInt64 → Int32) (s : ConfigController) (raw : Bytes) :
    ConfigController × Option (Nat × Json) :=
  match c.parse raw with
  | none =>
      (s, some (400, (Result.badRequest (Bytes.ofAscii "Invalid JSON body")).toJson))
  | some body =>
      match eachField (assign truncate (named body)) Field.all s.config with
      | .error cfg => ({ s with config := cfg }, none)
      | .ok cfg =>
          let (text, saved) := save c.dump cfg
          (⟨cfg, some text⟩, if saved then some (200, response cfg body) else none)

/-! ### What a request asks for -/

/-- A string for a field that is a string, and an integer for a port. -/
def RightType (v : Json) : Field → Prop
  | .mqttHost | .mqttClientId => ∃ s, v = .string s
  | .mqttPort | .httpPort | .wsPort => ∃ n, v = .integer n

/-- A string for a field that is a string, and a 32-bit integer for a port. -/
def Fits (v : Json) : Field → Prop
  | .mqttHost | .mqttClientId => ∃ s, v = .string s
  | .mqttPort | .httpPort | .wsPort =>
      ∃ n, v = .integer n ∧ -0x80000000 ≤ n ∧ n < 0x80000000

/-- The fields that a body names have the values it names them with, and the others are as
they were. -/
def Applied (body : Json) (old new : NexusConfig) : Prop :=
  ∀ f : Field, f.value new = (named body f).getD (f.value old)

/-- A body names a field with a value of the wrong type. -/
def NamesWrong (body : Json) : Prop :=
  ∃ f v, named body f = some v ∧ ¬ RightType v f

/-- The request is answered with 200, with the fields applied in memory and in the file; or a
field is named with a value of the wrong type, and the request fails and changes nothing. -/
def Meets (c : Json.Codec) (truncate : UInt64 → Int32) (body : Json) (s t : ConfigController)
    (answer : Option (Nat × Json)) : Prop :=
  ((∃ j, answer = some (200, j)) ∧ Applied body s.config t.config
      ∧ Applied body (loadOrCreate c truncate s.file).1 (loadOrCreate c truncate t.file).1)
    ∨ (NamesWrong body ∧ (∀ j, answer ≠ some (200, j)) ∧ t = s)

/-! ### When the request is met -/

/-- Some fields, where they are named, are converted to the values they have already. -/
def Keeps (truncate : UInt64 → Int32) (body : Json) (cfg : NexusConfig) (fields : List Field) :
    Prop :=
  ∀ f ∈ fields, ∀ v, named body f = some v → f.convert truncate v = some (f.value cfg)

/-- Every field that is named fits; each other one has the same value in memory and in the
file, with UTF-8 strings only. -/
def CanApply (c : Json.Codec) (truncate : UInt64 → Int32) (body : Json) (s : ConfigController) :
    Prop :=
  (∀ f v, named body f = some v → Fits v f)
    ∧ ∀ f, named body f = none →
      f.value s.config = f.value (loadOrCreate c truncate s.file).1 ∧ (f.value s.config).Valid

/-- A field is named with a value that cannot be converted, and the fields before it keep
their values. -/
def FailsClean (truncate : UInt64 → Int32) (body : Json) (s : ConfigController) : Prop :=
  ∃ before f rest v, Field.all = before ++ f :: rest ∧ named body f = some v
    ∧ f.convert truncate v = none ∧ Keeps truncate body s.config before

/-- A field is named with a value of the wrong type, all named fields keep their values, and
the save fails on a file that is empty already. -/
def FailsEmpty (truncate : UInt64 → Int32) (body : Json) (s : ConfigController) : Prop :=
  NamesWrong body ∧ Keeps truncate body s.config Field.all
    ∧ (∃ f : Field, ¬ (f.value s.config).Valid) ∧ s.file = some []

section

variable {truncate : UInt64 → Int32} {body : Json} {cfg cfg' : NexusConfig} {f : Field} {v : Json}

theorem fits_value (cfg : NexusConfig) (f : Field) :
  Fits (f.value cfg) f
  := by
  have hport : ∀ n : Int32, ∃ m, Json.integer n.toInt = .integer m ∧ -0x80000000 ≤ m
      ∧ m < 0x80000000 := by
    intro n
    use n.toInt, rfl, n.le_toInt, n.toInt_lt
  cases f
  · exact ⟨_, rfl⟩
  · apply hport
  · exact ⟨_, rfl⟩
  · apply hport
  · apply hport

/-- A value that fits is converted to itself. -/
theorem Fits.convert (h : Fits v f) :
  f.convert truncate v = some v
  := by
  have hport : ∀ n : Int, -0x80000000 ≤ n → n < 0x80000000 → (Int32.ofInt n).toInt = n :=
    fun n hle hlt => Int32.toInt_ofInt_of_le hle hlt
  cases f
  · obtain ⟨s, rfl⟩ := h
    rfl
  · obtain ⟨n, rfl, hle, hlt⟩ := h
    simp [Field.convert, Json.asInt32, hport n hle hlt]
  · obtain ⟨s, rfl⟩ := h
    rfl
  · obtain ⟨n, rfl, hle, hlt⟩ := h
    simp [Field.convert, Json.asInt32, hport n hle hlt]
  · obtain ⟨n, rfl, hle, hlt⟩ := h
    simp [Field.convert, Json.asInt32, hport n hle hlt]

/-- A value of the right type is converted. -/
theorem RightType.convert_ne_none (h : RightType v f) :
  f.convert truncate v ≠ none
  := by
  cases f <;> obtain ⟨x, rfl⟩ := h <;> simp [Field.convert, Json.asString, Json.asInt32]

/-- After the fields have been assigned, the configuration is as it was just if they keep
their values. -/
theorem eq_iff_keeps
    {fields : List Field} (hnodup : fields.Nodup)
    (h : eachField (assign truncate (named body)) fields cfg = .ok cfg') :
  cfg' = cfg ↔ Keeps truncate body cfg fields
  := by
  obtain ⟨hnamed, hother⟩ := value_eachField hnodup h
  constructor
  · rintro rfl
    apply hnamed
  · intro hkeeps
    apply ext_value
    intro f
    by_cases hf : f ∈ fields ∧ named body f ≠ none
    · obtain ⟨v, hv⟩ := Option.ne_none_iff_exists'.mp hf.2
      have hsame := (hnamed f hf.1 v hv).symm.trans (hkeeps f hf.1 v hv)
      apply Option.some.inj hsame
    · apply hother f
      intro hmem
      by_contra hne
      apply hf ⟨hmem, hne⟩

/-- Fields that have been assigned have been applied just if they fit. -/
theorem applied_iff_fits
    (h : eachField (assign truncate (named body)) Field.all cfg = .ok cfg') :
  Applied body cfg cfg' ↔ ∀ f v, named body f = some v → Fits v f
  := by
  obtain ⟨hnamed, hother⟩ := value_eachField Field.nodup_all h
  constructor
  · intro happlied f v hv
    have hvalue := happlied f
    rw [hv, Option.getD_some] at hvalue
    rw [← hvalue]
    apply fits_value
  · intro hfits f
    cases hv : named body f with
    | none => apply hother f fun _ => hv
    | some v =>
        have hconvert := hnamed f (Field.mem_all f) v hv
        rw [(hfits f v hv).convert] at hconvert
        apply (Option.some.inj hconvert).symm

/-- An assignment that fails names a value that cannot be converted. -/
theorem assign_eq_none
    (h : assign truncate (named body) cfg f = none) :
  ∃ v, named body f = some v ∧ f.convert truncate v = none
  := by
  unfold assign at h
  cases hv : named body f with
  | none =>
      rw [hv] at h
      cases h
  | some v =>
      rw [hv] at h
      use v, rfl, Field.set_eq_none.mp h

/-- Where an assignment throws, the configuration is as it was just if the fields before keep
their values. -/
theorem error_eq_iff
    {s : ConfigController}
    (h : eachField (assign truncate (named body)) Field.all s.config = .error cfg) :
  cfg = s.config ↔ FailsClean truncate body s
  := by
  constructor
  · rintro rfl
    obtain ⟨before, f, rest, hall, hbefore, hnone⟩ := eachField_eq_error h
    obtain ⟨v, hv, hconvert⟩ := assign_eq_none hnone
    have hnodup := Field.nodup_all
    rw [hall] at hnodup
    use before, f, rest, v, hall, hv, hconvert
    apply (eq_iff_keeps (List.Nodup.of_append_left hnodup) hbefore).mp rfl
  · rintro ⟨before, f, rest, v, hall, hv, hconvert, hkeeps⟩
    have hnodup := Field.nodup_all
    rw [hall] at hnodup
    have hall' : ∀ g ∈ before, ∀ w, named body g = some w → g.convert truncate w ≠ none := by
      intro g hg w hw
      rw [hkeeps g hg w hw]
      simp
    obtain ⟨cfg', hbefore⟩ := exists_eachField hall' s.config
    obtain rfl := (eq_iff_keeps (List.Nodup.of_append_left hnodup) hbefore).mpr hkeeps
    have hnone : assign truncate (named body) s.config f = none := by
      rw [assign, hv]
      apply Field.set_eq_none.mpr hconvert
    rw [hall, eachField_append hbefore, eachField, hnone] at h
    cases h
    rfl

/-! ### The three ways that an update ends -/

variable {c : Json.Codec} {s : ConfigController}

/-- A field throws. -/
theorem meets_thrown_iff
    (hfields : eachField (assign truncate (named body)) Field.all s.config = .error cfg) :
  Meets c truncate body s ⟨cfg, s.file⟩ none
    ↔ CanApply c truncate body s ∨ FailsClean truncate body s ∨ FailsEmpty truncate body s
  := by
  obtain ⟨before, f, rest, hall, hbefore, hnone⟩ := eachField_eq_error hfields
  obtain ⟨v, hv, hconvert⟩ := assign_eq_none hnone
  have happly : ¬ CanApply c truncate body s := by
    rintro ⟨hfits, -⟩
    rw [(hfits f v hv).convert] at hconvert
    cases hconvert
  have hempty : ¬ FailsEmpty truncate body s := by
    rintro ⟨-, hkeeps, -⟩
    rw [hkeeps f (Field.mem_all f) v hv] at hconvert
    cases hconvert
  have hwrong : NamesWrong body := ⟨f, v, hv, fun hright => hright.convert_ne_none hconvert⟩
  have hsame : (⟨cfg, s.file⟩ : ConfigController) = s ↔ cfg = s.config := by
    cases s
    simp
  simp only [Meets, happly, hempty, hwrong, false_or, or_false, true_and, hsame,
    error_eq_iff hfields]
  simp

/-- Where all fields have been assigned, none has failed. -/
theorem not_failsClean
    (hfields : eachField (assign truncate (named body)) Field.all s.config = .ok cfg) :
  ¬ FailsClean truncate body s
  := by
  obtain ⟨hnamed, -⟩ := value_eachField Field.nodup_all hfields
  rintro ⟨before, f, rest, v, hall, hv, hnone, -⟩
  rw [hnamed f (Field.mem_all f) v hv] at hnone
  cases hnone

/-- The configuration is saved. -/
theorem meets_saved_iff
    (hc : c.Spec)
    (hfields : eachField (assign truncate (named body)) Field.all s.config = .ok cfg)
    {text : Bytes} (htext : c.dump cfg.toJson = some text) :
  Meets c truncate body s ⟨cfg, some text⟩ (some (200, response cfg body))
    ↔ CanApply c truncate body s ∨ FailsClean truncate body s ∨ FailsEmpty truncate body s
  := by
  have hkeeps := eq_iff_keeps Field.nodup_all hfields
  have hfits := applied_iff_fits hfields
  obtain ⟨-, hother⟩ := value_eachField Field.nodup_all hfields
  have hclean := not_failsClean hfields
  have hutf8 := valid_toJson.mp (hc.valid_of_dump htext)
  have hempty : ¬ FailsEmpty truncate body s := by
    rintro ⟨-, hkeeps', ⟨f, hf⟩, -⟩
    rw [← hkeeps.mpr hkeeps'] at hf
    apply hf (hutf8 f)
  have hload := loadOrCreate_dump hc truncate htext
  have hnot200 : ¬ ∀ j, some (200, response cfg body) ≠ some (200, j) :=
    fun h => h _ rfl
  simp only [Meets, hclean, hempty, hnot200, or_false, false_and, and_false, hload, hfits]
  constructor
  · rintro ⟨-, hfits', hdisk⟩
    use hfits'
    intro f hf
    have hvalue := hdisk f
    rw [hf, Option.getD_none, hother f fun _ => hf] at hvalue
    use hvalue
    rw [← hother f fun _ => hf]
    apply hutf8 f
  · rintro ⟨hfits', hrest⟩
    use ⟨_, rfl⟩, hfits'
    intro f
    rw [hfits.mpr hfits' f]
    cases hv : named body f with
    | none => apply (hrest f hv).1
    | some v => rfl

/-- The save throws, with the file open and empty. -/
theorem meets_unsaved_iff
    (hc : c.Spec) (hvalid : ∀ f v, named body f = some v → v.Valid)
    (hfields : eachField (assign truncate (named body)) Field.all s.config = .ok cfg)
    (htext : c.dump cfg.toJson = none) :
  Meets c truncate body s ⟨cfg, some []⟩ none
    ↔ CanApply c truncate body s ∨ FailsClean truncate body s ∨ FailsEmpty truncate body s
  := by
  have hkeeps := eq_iff_keeps Field.nodup_all hfields
  have hfits := applied_iff_fits hfields
  have hclean := not_failsClean hfields
  have hutf8 : ¬ ∀ f : Field, (f.value cfg).Valid := by
    rw [← valid_toJson]
    apply (hc.dump_eq_none _).mp htext
  have happly : ¬ CanApply c truncate body s := by
    rintro ⟨hfits', hrest⟩
    apply hutf8
    intro f
    rw [hfits.mpr hfits' f]
    cases hv : named body f with
    | none => apply (hrest f hv).2
    | some v => apply hvalid f v hv
  have hsame : (⟨cfg, some []⟩ : ConfigController) = s ↔ cfg = s.config ∧ s.file = some [] := by
    cases s
    simp [eq_comm]
  simp only [Meets, hclean, happly, false_or, hsame, hkeeps, FailsEmpty]
  constructor
  · rintro (⟨⟨j, hj⟩, -⟩ | ⟨hwrong, -, hsame', hfile⟩)
    · cases hj
    · use hwrong, hsame'
      rw [← hkeeps.mpr hsame']
      use not_forall.mp hutf8
  · rintro ⟨hwrong, hsame', -, hfile⟩
    right
    use hwrong
    constructor
    · intro j hj
      cases hj
    · use hsame'

end

/-- An update is met just if every named field fits, and every other one is the same in
memory and in the file; or a value that cannot be converted comes before any change; or the
save fails without a change. -/
theorem meets_iff
    (c : Json.Codec) (hc : c.Spec) (truncate : UInt64 → Int32) (s : ConfigController)
    (raw : Bytes) (body : Json) (hbody : c.parse raw = some body) :
  Meets c truncate body s (update c truncate s raw).1 (update c truncate s raw).2
    ↔ CanApply c truncate body s ∨ FailsClean truncate body s ∨ FailsEmpty truncate body s
  := by
  have hvalid : ∀ f v, named body f = some v → v.Valid := by
    intro f v hv
    obtain ⟨j, hj, hv⟩ := Option.bind_eq_some_iff.mp hv
    apply ((hc.proper_of_parse raw body hbody).2.member hj).member hv
  cases hfields : eachField (assign truncate (named body)) Field.all s.config with
  | error cfg =>
      have hupdate : update c truncate s raw = (⟨cfg, s.file⟩, none) := by
        simp only [update, hbody, hfields]
      rw [hupdate]
      apply meets_thrown_iff hfields
  | ok cfg =>
      cases htext : c.dump cfg.toJson with
      | some text =>
          have hupdate : update c truncate s raw
              = (⟨cfg, some text⟩, some (200, response cfg body)) := by
            simp only [update, hbody, hfields, save, htext, if_true]
          rw [hupdate]
          apply meets_saved_iff hc hfields htext
      | none =>
          have hupdate : update c truncate s raw = (⟨cfg, some []⟩, none) := by
            simp only [update, hbody, hfields, save, htext]
            rfl
          rw [hupdate]
          apply meets_unsaved_iff hc hvalid hfields htext

/-- A request leaves a configuration that can be saved. -/
theorem valid_update
    {c : Json.Codec} (hc : c.Spec) {truncate : UInt64 → Int32} {s : ConfigController}
    (h : s.config.toJson.Valid) (raw : Bytes) :
  (update c truncate s raw).1.config.toJson.Valid
  := by
  unfold update
  split
  next => exact h
  next body hbody =>
    have hvalid := (hc.proper_of_parse raw body hbody).2
    have hassign : ∀ cfg f cfg', cfg.toJson.Valid →
        assign truncate (named body) cfg f = some cfg' → cfg'.toJson.Valid := by
      intro cfg f cfg' hcfg hassign
      unfold assign at hassign
      split at hassign
      next =>
        cases hassign
        exact hcfg
      next v hv =>
        obtain ⟨group, hgroup, hkey⟩ := Option.bind_eq_some_iff.mp hv
        exact valid_set hcfg ((hvalid.member hgroup).member hkey) hassign
    have hassigned := eachField_induction hassign Field.all h
    split
    next cfg hcfg =>
      rw [hcfg] at hassigned
      exact hassigned
    next cfg hcfg =>
      rw [hcfg] at hassigned
      exact hassigned

/-- The default configuration, in memory and in the file. -/
def init : ConfigController where
  config := default
  file := some (JsonText.print 2 0 default.toJson)

/-- A body that names the port of the HTTP server. -/
def httpPortBody : Json :=
  .object [(Bytes.ofAscii "http", .object [(Bytes.ofAscii "port", .integer 9090)])]

theorem meets_iff_httpPort :
  Meets (JsonText.codec 2) (fun _ => 0) httpPortBody init
    (update (JsonText.codec 2) (fun _ => 0) init (JsonText.print 2 0 httpPortBody)).1
    (update (JsonText.codec 2) (fun _ => 0) init (JsonText.print 2 0 httpPortBody)).2
  := by
  have hbody : (JsonText.codec 2).parse (JsonText.print 2 0 httpPortBody) = some httpPortBody :=
    JsonText.codec_parse_print (by decide +kernel) (by decide +kernel) 2
  have hdisk :
      (loadOrCreate (JsonText.codec 2) (fun _ => 0) init.file).1 = NexusConfig.default := by
    apply loadOrCreate_dump (JsonText.codec_spec 2)
    apply JsonText.codec_dump
    decide +kernel
  have hutf8 : ∀ f : Field, (f.value NexusConfig.default).Valid :=
    valid_toJson.mp (by decide +kernel)
  apply (meets_iff _ (JsonText.codec_spec 2) _ _ _ httpPortBody hbody).mpr
  left
  constructor
  · intro f v hv
    cases f with
    | httpPort =>
        obtain rfl := Option.some.inj hv
        use 9090, rfl
        decide
    | mqttHost | mqttPort | mqttClientId | wsPort => cases hv
  · intro f _
    rw [hdisk]
    use rfl, hutf8 f

/-- A body that names the host with a string and the port with one too. -/
def mqttBody : Json :=
  .object [(Bytes.ofAscii "mqtt", .object
    [(Bytes.ofAscii "host", .string (Bytes.ofAscii "broker")),
      (Bytes.ofAscii "port", .string (Bytes.ofAscii "high"))])]

/-- The host is changed in memory before the port throws. -/
theorem not_meets :
  ¬ ∀ (c : Json.Codec), c.Spec → ∀ (truncate : UInt64 → Int32) (s : ConfigController)
      (raw : Bytes) (body : Json), c.parse raw = some body →
        Meets c truncate body s (update c truncate s raw).1 (update c truncate s raw).2
  := by
  intro h
  have hbody : (JsonText.codec 2).parse (JsonText.print 2 0 mqttBody) = some mqttBody :=
    JsonText.codec_parse_print (by decide +kernel) (by decide +kernel) 2
  have hnone : (update (JsonText.codec 2) (fun _ => 0) init (JsonText.print 2 0 mqttBody)).2
      = none := by
    rw [update, hbody]
    rfl
  have hhost : (update (JsonText.codec 2) (fun _ => 0) init
      (JsonText.print 2 0 mqttBody)).1.config ≠ init.config := by
    rw [update, hbody]
    decide +kernel
  rcases h (JsonText.codec 2) (JsonText.codec_spec 2) (fun _ => 0) init
    (JsonText.print 2 0 mqttBody) mqttBody hbody with ⟨⟨j, hj⟩, -⟩ | ⟨-, -, hsame⟩
  · rw [hnone] at hj
    cases hj
  · apply hhost
    rw [hsame]

end ConfigController

end NexusMainframe
