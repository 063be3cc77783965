import Battlemap.Proofs.Success
import Battlemap.Settings.BuildSettings

/-!
# `Battlemap.Proofs.Settings.Layers`: which layer a setting of a build comes from

Four layers can give a setting of a build its value: an option of the
command line, a JSON configuration, the settings file with the
environment in front of it, and the standard values. `FirstGiven` says
that the first of them that has the setting gives it, and
`layers_in_turn` that all settings of a build are got like that, but for
one case. Options and settings are laid over one another setting by
setting, a JSON configuration is not: it stands in place of the settings
file as a whole. A setting that it leaves out has its standard value,
whatever the settings file and the environment say
(`omitted_setting_lost`).

A setting is a value of `BuildSetting`, and what the layers hold of it are
functions of it, so that each lemma is about all four at once.
-/

set_option autoImplicit false

namespace Battlemap

/-! ### Fields of a record -/

namespace Json

/-- The value of a field of a record: that of its name in an object, that
at its place in an array. -/
def fieldAt? (place : Nat) (name : String) : Json → Option Json
  | object fields => (fields.find? fun (key, _) => key == some name).map Prod.snd
  | array items => items[place]?
  | _ => none

/-- The value of a key that occurs once at most is the first one with its name. -/
theorem uniqueValue?_eq_some {fields : List (Option String × Json)} {name : String}
    {value : Option Json} (h : uniqueValue? fields name = some value) :
    value = (fields.find? fun (key, _) => key == some name).map Prod.snd := by
  have hhead : (valuesOf fields name).head?
      = (fields.find? fun (key, _) => key == some name).map Prod.snd := by
    simp [valuesOf]
  rw [← hhead]
  unfold uniqueValue? at h
  split at h <;> simp_all

/-- The fields of a record are looked up by name, or by place where the record is an array. -/
theorem record?_eq_some {names : List String} {j : Json} {values : List (Option Json)}
    (h : j.record? names = some values) :
    values = names.mapIdx fun place name => j.fieldAt? place name := by
  cases j with
  | object fields =>
    simp only [record?] at h
    split at h
    · have hvalues := mapM_eq_some_iff.mp h
      have hlength : names.length = values.length := by simpa using congrArg List.length hvalues
      refine List.ext_getElem (by simp [hlength]) fun i hi hi' => ?_
      have hname : i < names.length := by omega
      have hunique : uniqueValue? fields names[i] = some values[i] := by
        have hplace := congrArg (·[i]?) hvalues
        simpa [List.getElem?_map, List.getElem?_eq_getElem, hi, hlength] using hplace
      simpa [fieldAt?] using uniqueValue?_eq_some hunique
    · cases h
  | array items =>
    simp only [record?] at h
    split at h
    · next hfew =>
      obtain rfl := Option.some.inj h
      refine List.ext_getElem (by simp; omega) fun i hi hi' => ?_
      -- Fields behind the last element have no value.
      simp only [List.getElem_append, List.getElem_mapIdx, fieldAt?]
      split
      · simp_all
      · next hitem =>
        have hbehind : items.length ≤ i := by simpa using hitem
        simp [hbehind]
    · cases h
  | _ => cases h

end Json

/-! ### The settings and their layers -/

/-- The settings that the layers give. -/
inductive BuildSetting where
  | tileSize
  | minRayHeight
  | maxInclination
  | payloadSize

namespace BuildSetting

/-- The type of the setting. -/
abbrev Value : BuildSetting → Type
  | tileSize | minRayHeight | maxInclination => Single
  | payloadSize => UInt32

/-- The setting in a configuration. -/
def of (c : BuildConfig) : (f : BuildSetting) → f.Value
  | tileSize => c.tileSize
  | minRayHeight => c.minRayHeight
  | maxInclination => c.maxInclination
  | payloadSize => c.payloadSize

/-- The value that an option gives. -/
def option? (options : BuildOptions) : (f : BuildSetting) → Option f.Value
  | tileSize => options.tileSize
  | minRayHeight => options.minRayHeight
  | maxInclination => options.maxInclination
  | payloadSize => options.payloadSize

/-- The JSON value that a configuration has for the setting. -/
def json? (f : BuildSetting) (j : Json) : Option Json :=
  match f with
  | tileSize => j.fieldAt? 0 "tileSize"
  | minRayHeight => j.fieldAt? 1 "minRayHeight"
  | maxInclination => j.fieldAt? 2 "maxFloorInclinationDeg"
  | payloadSize => j.fieldAt? 3 "metadataSize"

/-- What a JSON value says as a value of the setting. -/
def ofJson? : (f : BuildSetting) → Json → Option f.Value
  | tileSize | minRayHeight | maxInclination => Json.toSingle?
  | payloadSize => Json.toUInt32?

/-- The value that the environment or the settings file gives, if either
has one that can be read. A negative payload length counts as zero. -/
def setting? (s : Settings) : (f : BuildSetting) → Option f.Value
  | tileSize => (s.get? "TileSize").bind Single.read?
  | minRayHeight => (s.get? "MinRayHeight").bind Single.read?
  | maxInclination => (s.get? "MaxFloorInclination").bind Single.read?
  | payloadSize => ((s.get? "MetadataSize").bind readInt32).map fun size =>
      if size < 0 then 0 else size.toUInt32

/-- The standard value. -/
def standard (f : BuildSetting) : f.Value := f.of .standard

/-- A setting that the text does not give has its standard value. -/
theorem of_ofSettings (s : Settings) (f : BuildSetting) :
    f.of (.ofSettings s) = (f.setting? s).getD f.standard := by
  cases f
  case payloadSize =>
    have hsize : ∀ read : Option Int32,
        (let size := read.getD 0; if size < 0 then (0 : UInt32) else size.toUInt32)
          = (read.map fun size => if size < 0 then 0 else size.toUInt32).getD 0 := by
      rintro (- | _) <;> rfl
    exact hsize _
  all_goals rfl

/-- A setting that the options do not give stays as it was. -/
theorem of_withOptions (c : BuildConfig) (options : BuildOptions) (f : BuildSetting) :
    f.of (c.withOptions options) = (f.option? options).getD (f.of c) := by
  cases f <;> rfl

/-- A JSON configuration that is accepted has a value that can be read
for every setting, or none. -/
theorem of_toBuildConfig? {j : Json} {c : BuildConfig} (h : j.toBuildConfig? = some c)
    (f : BuildSetting) : Json.fieldOr f.standard f.ofJson? (f.json? j) = some (f.of c) := by
  unfold Json.toBuildConfig? at h
  obtain ⟨values, hvalues, h⟩ := Option.bind_eq_some_iff.mp h
  rw [Json.record?_eq_some hvalues] at h
  simp only [List.mapIdx_cons, List.mapIdx_nil, Option.bind_eq_bind, Option.bind_eq_some_iff] at h
  obtain ⟨tileSize, htile, minRayHeight, hheight, maxInclination, hinclination, payloadSize,
    hpayload, heq⟩ := h
  obtain rfl := Option.some.inj heq
  cases f
  · exact htile
  · exact hheight
  · exact hinclination
  · exact hpayload

/-- The value is that of the first layer that has the setting. -/
structure FirstGiven (f : BuildSetting) (s : Settings) (json : Option Json)
    (options : BuildOptions) (value : f.Value) : Prop where
  ofOption : ∀ given, f.option? options = some given → value = given
  ofJson : f.option? options = none →
    ∀ written, json.bind f.json? = some written → f.ofJson? written = some value
  ofSetting : f.option? options = none → json.bind f.json? = none →
    value = (f.setting? s).getD f.standard

/-- There is a JSON configuration, it leaves the setting out, and no
option gives it. -/
def Omitted (f : BuildSetting) (json : Option Json) (options : BuildOptions) : Prop :=
  f.option? options = none ∧ json ≠ none ∧ json.bind f.json? = none

instance (f : BuildSetting) (json : Option Json) (options : BuildOptions) :
    Decidable (f.Omitted json options) :=
  inferInstanceAs (Decidable (_ ∧ _ ∧ _))

/-- A configuration is accepted if there is no text, or if the text describes a whole one. -/
theorem accepted_cases {text : Option String} {config : Option BuildConfig}
    (h : text.mapM BuildConfig.read? = some config) :
    text.bind Json.read? = none ∧ config = none
      ∨ ∃ j c, text.bind Json.read? = some j ∧ config = some c ∧ j.toBuildConfig? = some c := by
  cases text with
  | none => exact .inl ⟨rfl, (Option.some.inj h).symm⟩
  | some text =>
    obtain ⟨c, hread, hconfig⟩ := Option.map_eq_some_iff.mp h
    obtain ⟨j, hj, hc⟩ := Option.bind_eq_some_iff.mp hread
    exact .inr ⟨j, c, hj, hconfig.symm, hc⟩

/-- Every setting of a build comes from the first layer that has it, unless
a JSON configuration leaves it out and no option gives it: then it has its
standard value. -/
theorem layers_in_turn {s : Settings} {options : BuildOptions} {text : Option String}
    {config : Option BuildConfig} (h : text.mapM BuildConfig.read? = some config)
    (f : BuildSetting) :
    (¬ f.Omitted (text.bind Json.read?) options →
        f.FirstGiven s (text.bind Json.read?) options (f.of (.layered s config options)))
      ∧ (f.Omitted (text.bind Json.read?) options →
        f.of (.layered s config options) = f.standard) := by
  rw [BuildConfig.layered, of_withOptions]
  rcases accepted_cases h with ⟨hjson, rfl⟩ | ⟨j, c, hjson, rfl, hc⟩ <;> rw [hjson]
  · -- Without a JSON configuration nothing is left out.
    have hbase := f.of_ofSettings s
    exact ⟨fun _ => ⟨by simp_all, by simp, by simp_all⟩, fun homitted => absurd rfl homitted.2.1⟩
  · have hfield := of_toBuildConfig? hc f
    have hwritten : ∀ written, f.json? j = some written → f.ofJson? written = some (f.of c) := by
      intro written hwritten
      simpa only [hwritten, Json.fieldOr] using hfield
    -- The standard value stands in here, and the settings are not asked.
    have hmissing : f.json? j = none → f.of c = f.standard := by
      intro hmissing
      rw [hmissing] at hfield
      exact (Option.some.inj hfield).symm
    refine ⟨fun hgiven => ⟨by simp_all, by simp_all, fun hoption hmissing => ?_⟩, ?_⟩
    · exact absurd ⟨hoption, by simp, hmissing⟩ hgiven
    · rintro ⟨hoption, -, hmissing'⟩
      simp_all

/-- The settings of a file that asks for tiles of two units. -/
def wideTiles : Settings :=
  ⟨(Ini.read? "[tacmap]\nTileSize = 2.0\n").getD .empty, .empty, "Tacmap_"⟩

/-- A JSON configuration that asks for a payload and says nothing else. -/
def payloadOnly : Option String := some "\x7b\"metadataSize\": 8\x7d"

/-- What is read from it. -/
def payloadConfig : BuildConfig := { BuildConfig.standard with payloadSize := 8 }

/-- A text that gives the payload size alone is a configuration. -/
theorem read?_payloadOnly : payloadOnly.mapM BuildConfig.read? = some (some payloadConfig) := by
  decide +kernel

/-- With that text the payload size is the given one, while the tile size falls back on its
standard value in spite of the settings. -/
theorem payload_given_tiles_standard :
    ¬ payloadSize.Omitted (payloadOnly.bind Json.read?) default
      ∧ payloadSize.FirstGiven wideTiles (payloadOnly.bind Json.read?) default
        (payloadSize.of (.layered wideTiles (some payloadConfig) default))
      ∧ tileSize.Omitted (payloadOnly.bind Json.read?) default
      ∧ tileSize.of (.layered wideTiles (some payloadConfig) default) = tileSize.standard := by
  have hpayload : ¬ payloadSize.Omitted (payloadOnly.bind Json.read?) default := by
    decide +kernel
  have htiles : tileSize.Omitted (payloadOnly.bind Json.read?) default := by decide +kernel
  exact ⟨hpayload, (layers_in_turn read?_payloadOnly payloadSize).1 hpayload, htiles,
    (layers_in_turn read?_payloadOnly tileSize).2 htiles⟩

/-- The tiles of the settings file are lost to a configuration that only
asks for a payload. -/
theorem omitted_setting_lost :
    ¬ ∀ (s : Settings) (options : BuildOptions) (text : Option String)
      (config : Option BuildConfig) (f : BuildSetting),
      text.mapM BuildConfig.read? = some config →
        f.FirstGiven s (text.bind Json.read?) options (f.of (.layered s config options)) := by
  intro hlayers
  have htiles := hlayers wideTiles default payloadOnly _ tileSize read?_payloadOnly
  have hoption : tileSize.option? default = none := rfl
  have hleft : (payloadOnly.bind Json.read?).bind tileSize.json? = none := by decide +kernel
  have hwide : tileSize.setting? wideTiles = some (⟨0x40000000⟩ : Single) := by decide +kernel
  have hvalue := htiles.ofSetting hoption hleft
  rw [hwide] at hvalue
  exact absurd hvalue (by decide +kernel)

end BuildSetting

end Battlemap
