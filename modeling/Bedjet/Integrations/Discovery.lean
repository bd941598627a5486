import Bedjet.Api.Fans
import Bedjet.Api.Targets
import Bedjet.Broker.Topics
import Bedjet.Integrations.Mqtt
import Bedjet.Protocol.Snapping
import Bedjet.Python.Dict
import Bedjet.Python.Numerals

/-!
The command topics of the MQTT adapter, and what it tells Home Assistant of them: a
climate entity, a fan number and a sensor, each with the topics it is to use.
-/

namespace Bedjet.Integrations

open Python Protocol Device Service Api Broker

/-! ### Topics -/

namespace MqttConfig

variable (config : MqttConfig)

def commandWildcard : String := config.topicPrefix ++ "/set/+"

def commandTopic (name : String) : String := config.topicPrefix ++ "/set/" ++ name

end MqttConfig

/-- `MqttConfig`, with what else `cmd_mqtt` and discovery read of it. -/
structure BrokerConfig extends MqttConfig where
  hostname : String := "127.0.0.1"
  port : ℤ := 1883
  username : Option String := none
  password : Option String := none
  deviceName : String := "BedJet"
  discoveryPrefix : String := "homeassistant"

/-! ### Discovery configs -/

/-- A value in a discovery config. -/
inductive Setting
  | null
  | text (value : String)
  | number (value : ℚ)
  | texts (values : List String)
  | device (identifiers : List String) (name manufacturer model : String)
  /-- a list of objects that have a topic -/
  | topics (topics : List String)
  deriving DecidableEq

/-- The Jinja template of one member of the state payload. -/
def valueOf (key : String) : Setting :=
  .text ("\x7b\x7b value_json." ++ key ++ " \x7d\x7d")

section

variable (config : BrokerConfig)

def deviceSetting : Setting :=
  .device [config.deviceId] config.deviceName "BedJet" "BedJet 3"

def availabilitySetting : Setting :=
  .topics [config.availabilityTopic]

/-- The modes of the climate entity. -/
def climateModes : List String := ["off", "cool", "heat", "dry"]

def climate : Dict String Setting := [
  ("name", .null),
  ("unique_id", .text (config.deviceId ++ "_climate")),
  ("device", deviceSetting config),
  ("availability", availabilitySetting config),
  ("modes", .texts climateModes),
  ("mode_state_topic", .text config.stateTopic),
  ("mode_state_template", valueOf "ha_mode"),
  ("mode_command_topic", .text (config.commandTopic "mode")),
  ("current_temperature_topic", .text config.stateTopic),
  ("current_temperature_template", valueOf "actual_temp_c"),
  ("temperature_state_topic", .text config.stateTopic),
  ("temperature_state_template", valueOf "target_temp_c"),
  ("temperature_command_topic", .text (config.commandTopic "temperature")),
  ("temperature_unit", .text "C"),
  ("temp_step", .number (1 / 2)),
  ("precision", .number (1 / 2))]

/-- The `fan` of `discovery_payloads` -/
def fanNumber : Dict String Setting := [
  ("name", .text "Fan"),
  ("unique_id", .text (config.deviceId ++ "_fan")),
  ("device", deviceSetting config),
  ("availability", availabilitySetting config),
  ("state_topic", .text config.stateTopic),
  ("value_template", valueOf "fan_percent"),
  ("command_topic", .text (config.commandTopic "fan")),
  ("min", .number 5),
  ("max", .number 100),
  ("step", .number 5),
  ("unit_of_measurement", .text "%"),
  ("icon", .text "mdi:fan")]

def ambient : Dict String Setting := [
  ("name", .text "Ambient temperature"),
  ("unique_id", .text (config.deviceId ++ "_ambient")),
  ("device", deviceSetting config),
  ("availability", availabilitySetting config),
  ("state_topic", .text config.stateTopic),
  ("value_template", valueOf "ambient_temp_c"),
  ("device_class", .text "temperature"),
  ("unit_of_measurement", .text "°C"),
  ("state_class", .text "measurement")]

def discoveryPayloads : List (String × Dict String Setting) := [
  (config.discoveryPrefix ++ "/climate/" ++ config.deviceId ++ "/config", climate config),
  (config.discoveryPrefix ++ "/number/" ++ config.deviceId ++ "_fan/config", fanNumber config),
  (config.discoveryPrefix ++ "/sensor/" ++ config.deviceId ++ "_ambient/config", ambient config)]

/-- Every topic the bridge publishes on. -/
def publishedTopics : List String :=
  config.availabilityTopic :: config.stateTopic :: config.resultTopic ::
    (discoveryPayloads config).map (·.1)

end

/-! ### Routing -/

section

variable {config : MqttConfig} {name : String}

theorem commandName_below {above : String} (h : '/' ∉ name.toList) :
    commandName (above ++ "/" ++ name) = name := by
  have htext : (above ++ "/" ++ name).toList.reverse =
      name.toList.reverse ++ '/' :: above.toList.reverse := by simp
  have hlevel : ∀ c ∈ name.toList.reverse, decide (c ≠ '/') = true := by
    intro c hc
    have hmem : c ∈ name.toList := List.mem_reverse.mp hc
    exact decide_eq_true (fun heq => h (heq ▸ hmem))
  have hlast : (name.toList.reverse ++ '/' :: above.toList.reverse).takeWhile
      (fun c => decide (c ≠ '/')) = name.toList.reverse := by
    rw [List.takeWhile_append_of_pos hlevel]
    simp
  rw [commandName, htext, hlast, List.reverse_reverse, String.ofList_toList]

theorem commandTopic_eq (config : MqttConfig) (name : String) :
    config.commandTopic name = config.topicPrefix ++ "/set" ++ "/" ++ name :=
  String.toList_inj.mp (by simp [MqttConfig.commandTopic])

theorem commandName_commandTopic (h : '/' ∉ name.toList) :
    commandName (config.commandTopic name) = name := by
  rw [commandTopic_eq]
  exact commandName_below h

/-- A topic prefix that a filter may begin with as it is. -/
structure MqttConfig.Ordinary (config : MqttConfig) : Prop where
  plain : Plain config.topicPrefix
  notReserved : config.topicPrefix.toList.head? ≠ some '$'

/-- What the bridge subscribes to are its command topics. -/
theorem commandWildcard_delivers {delivers : String → String → Prop}
    (hbroker : KeepsLevels delivers) (h : config.Ordinary) {topic : String} (htopic : Plain topic) :
    delivers config.commandWildcard topic ↔
      ∃ name, topic = config.commandTopic name ∧ '/' ∉ name.toList := by
  have hplain : Plain (config.topicPrefix ++ "/set") := by
    refine ⟨?_, ?_⟩
    · simpa using h.plain.1
    · simpa using h.plain.2
  obtain ⟨c, hc⟩ : ∃ c, config.topicPrefix.toList.head? = some c := by
    cases hprefix : config.topicPrefix.toList with
    | nil => simp [MqttConfig.topicPrefix] at hprefix
    | cons c rest => exact ⟨c, rfl⟩
  have hfirst : (config.topicPrefix ++ "/set").toList.head? = some c := by simp [hc]
  have hdollar : c ≠ '$' := by
    rintro rfl
    exact h.notReserved hc
  have hfilter : config.commandWildcard = config.topicPrefix ++ "/set" ++ "/" ++ "+" :=
    String.toList_inj.mp (by simp [MqttConfig.commandWildcard])
  rw [hfilter, hbroker.below hplain hfirst hdollar htopic]
  simp only [commandTopic_eq]

theorem plain_commandTopic (h : config.Ordinary) (hplus : '+' ∉ name.toList)
    (hhash : '#' ∉ name.toList) : Plain (config.commandTopic name) := by
  refine ⟨?_, ?_⟩
  · simpa [MqttConfig.commandTopic, hplus] using h.plain.1
  · simpa [MqttConfig.commandTopic, hhash] using h.plain.2

/-! ### What it publishes -/

/-- One level below the topics of the bridge, there is one way to say so. -/
theorem eq_of_below {above above' name' : String} (hname : '/' ∉ name.toList)
    (hname' : '/' ∉ name'.toList) (h : above ++ "/" ++ name = above' ++ "/" ++ name') :
    above = above' ∧ name = name' := by
  have hlevels := levels_inj.mpr h
  rw [levels_slash, levels_slash, levels_single hname, levels_single hname'] at hlevels
  obtain ⟨habove, hlast⟩ := List.append_inj' hlevels rfl
  exact ⟨levels_inj.mp habove, String.toList_inj.mp (by simpa using hlast)⟩

/-- The command topics are two levels below the prefix, and its own topics one. -/
theorem ownTopic_ne_commandTopic {own : String} (hown : '/' ∉ own.toList)
    (hname : '/' ∉ name.toList) : config.topicPrefix ++ "/" ++ own ≠ config.commandTopic name := by
  intro h
  have hlevels := levels_inj.mpr h
  rw [commandTopic_eq, levels_slash, levels_slash, levels_single hown, levels_single hname]
    at hlevels
  have hset : levels (config.topicPrefix ++ "/set") =
      levels config.topicPrefix ++ [['s', 'e', 't']] := by
    have hslash : config.topicPrefix ++ "/set" = config.topicPrefix ++ "/" ++ "set" :=
      String.toList_inj.mp (by simp)
    rw [hslash, levels_slash]
    rfl
  rw [hset] at hlevels
  have hlength := congrArg List.length hlevels
  simp at hlength

/-- A discovery topic names the device before its last level, where a command topic has
`set`. -/
theorem discoveryTopic_ne_commandTopic (root : String) {device : String} (hname : '/' ∉ name.toList)
    (hdevice : root ++ "/" ++ device ≠ config.topicPrefix ++ "/set") :
    root ++ "/" ++ device ++ "/" ++ "config" ≠ config.commandTopic name := by
  intro h
  rw [commandTopic_eq] at h
  exact hdevice (eq_of_below (by decide) hname h).1

end

section

variable {config : BrokerConfig}

/-- The device is the last of the prefix; `set` would have to be one level of it more than it
is. -/
theorem climateTopic_ne (root : String) :
    root ++ "/climate" ++ "/" ++ config.deviceId ≠ config.topicPrefix ++ "/set" := by
  intro h
  have hlevels := levels_inj.mpr h
  have hset : config.topicPrefix ++ "/set" =
      config.baseTopic ++ "/" ++ config.deviceId ++ "/" ++ "set" :=
    String.toList_inj.mp (by simp [MqttConfig.topicPrefix])
  have hclimate : root ++ "/climate" ++ "/" ++ config.deviceId =
      root ++ "/" ++ "climate" ++ "/" ++ config.deviceId := String.toList_inj.mp (by simp)
  rw [hset, hclimate, levels_slash, levels_slash, levels_slash, levels_slash] at hlevels
  rw [List.append_assoc, List.append_assoc] at hlevels
  have hlast := List.append_inj_right' hlevels (by simp [levels_single, add_comm])
  have hcount := congrArg (List.count "set".toList) hlast
  simp [levels_single] at hcount

/-- Another name than the device's own does not end like a command topic. -/
theorem suffixedTopic_ne (root suffix : String) (hlong : 4 ≤ suffix.toList.length)
    (hend : ¬['/', 's', 'e', 't'] <:+ suffix.toList) :
    root ++ "/" ++ (config.deviceId ++ suffix) ≠ config.topicPrefix ++ "/set" := by
  intro h
  have htext : root.toList ++ '/' :: config.deviceId.toList ++ suffix.toList =
      config.topicPrefix.toList ++ ['/', 's', 'e', 't'] := by
    simpa using congrArg String.toList h
  have hsuffix : suffix.toList <:+ config.topicPrefix.toList ++ ['/', 's', 'e', 't'] :=
    ⟨_, htext⟩
  exact hend (List.suffix_of_suffix_length_le (List.suffix_append _ _) hsuffix hlong)

/-- A broker that keeps to the levels hands the bridge the messages on its command topics,
each under the name of the command, and nothing that it publishes itself. -/
theorem bridge_hears_commands_alone {delivers : String → String → Prop}
    (hbroker : KeepsLevels delivers) (h : config.Ordinary) :
    (∀ topic, Plain topic → (delivers config.commandWildcard topic ↔
      ∃ name, topic = config.commandTopic name ∧ '/' ∉ name.toList ∧ commandName topic = name)) ∧
    ∀ topic ∈ publishedTopics config, Plain topic → ¬delivers config.commandWildcard topic := by
  constructor
  · intro topic hplain
    rw [commandWildcard_delivers hbroker h hplain]
    constructor
    · rintro ⟨name, rfl, hname⟩
      exact ⟨name, rfl, hname, commandName_commandTopic hname⟩
    · rintro ⟨name, rfl, hname, -⟩
      exact ⟨name, rfl, hname⟩
  · intro topic htopic hplain hdelivers
    obtain ⟨name, hcommand, hname⟩ := (commandWildcard_delivers hbroker h hplain).mp hdelivers
    have hown (own : String) (hslash : '/' ∉ own.toList) :
        config.topicPrefix ++ ("/" ++ own) ≠ config.commandTopic name := by
      rw [← String.append_assoc]
      exact ownTopic_ne_commandTopic hslash hname
    simp only [publishedTopics, discoveryPayloads, List.map_cons, List.map_nil, List.mem_cons,
      List.not_mem_nil, or_false] at htopic
    rcases htopic with rfl | rfl | rfl | rfl | rfl | rfl
    · exact hown "availability" (by decide) hcommand
    · exact hown "state" (by decide) hcommand
    · exact hown "result" (by decide) hcommand
    · refine discoveryTopic_ne_commandTopic (config.discoveryPrefix ++ "/climate")
        hname (climateTopic_ne config.discoveryPrefix) (.trans ?_ hcommand)
      exact String.toList_inj.mp (by simp)
    · refine discoveryTopic_ne_commandTopic (config.discoveryPrefix ++ "/number")
        hname (suffixedTopic_ne _ "_fan" (by decide) (by decide)) (.trans ?_ hcommand)
      exact String.toList_inj.mp (by simp)
    · refine discoveryTopic_ne_commandTopic (config.discoveryPrefix ++ "/sensor")
        hname (suffixedTopic_ne _ "_ambient" (by decide) (by decide))
        (.trans ?_ hcommand)
      exact String.toList_inj.mp (by simp)

theorem ordinary_default : ({} : BrokerConfig).Ordinary where
  plain := by refine ⟨?_, ?_⟩ <;> decide
  notReserved := by decide

theorem bridge_hears_commands_alone_default :
    ¬Levelwise ({} : BrokerConfig).commandWildcard "bedjet/bedjet/result" :=
  (bridge_hears_commands_alone (fun _ _ _ _ => Iff.rfl) ordinary_default).2 _ (by decide)
    (by refine ⟨?_, ?_⟩ <;> decide)

end

/-! ### What Home Assistant sends -/

/-- A number that may be set, and otherwise has a default. -/
def Setting.numberOr (default : ℚ) : Option Setting → ℚ
  | some (.number value) => value
  | _ => default

section

variable (decimal : Char → Option ℕ)

/-- What Home Assistant's documentation lets an entity with this discovery config publish:
the topic, and what the payload reads. A target has a range of its own where the config
has none. -/
inductive Offers (entity : Dict String Setting) : String → String → Prop
  | mode {topic mode : String} {modes : List String}
      (htopic : entity.get "mode_command_topic" = some (.text topic))
      (hmodes : entity.get "modes" = some (.texts modes)) (hmode : mode ∈ modes) :
      Offers entity topic mode
  | temperature {topic text : String} {celsius : ℚ}
      (htopic : entity.get "temperature_command_topic" = some (.text topic))
      (hnumber : exactValue decimal text = some celsius)
      (hlow : Setting.numberOr 7 (entity.get "min_temp") ≤ celsius)
      (hhigh : celsius ≤ Setting.numberOr 35 (entity.get "max_temp")) : Offers entity topic text
  | number {topic text : String} {value : ℚ}
      (htopic : entity.get "command_topic" = some (.text topic))
      (hnumber : exactValue decimal text = some value)
      (hlow : Setting.numberOr 1 (entity.get "min") ≤ value)
      (hhigh : value ≤ Setting.numberOr 100 (entity.get "max")) : Offers entity topic text

/-- `sends` tells what the entities of Home Assistant publish, by their configs; those of the
bridge keep to what they offer. -/
def KeepsToOffers (config : BrokerConfig) (sends : Dict String Setting → String → String → Prop) :
    Prop :=
  ∀ entity ∈ (discoveryPayloads config).map (·.2), ∀ topic text,
    sends entity topic text → Offers decimal entity topic text

/-- What is to be made of it: the call of the API, and the command it is resolved to. -/
inductive Understood : String → String → Except MqttRaised Dispatched → Prop
  | mode {text : String} {mode : CommandMode} (hmode : mode ∈ unlockedModes)
      (hresolve : (ApiRequest.setMode text).resolve =
        .ok { request := .mode mode, description := "mode " ++ text }) :
      Understood "mode" text (.ok (.call (.setMode text)))
  /-- the half degree nearest to the double that is read; a half degree as it is -/
  | temperature {text : String} {celsius target : ℚ} {b : UInt8}
      (hnumber : exactValue decimal text = some celsius)
      (hread : Double.nearest celsius = .finite target)
      (hresolve : (askFor target).resolve = .ok (resolvedTarget b))
      (hnear : |tempByteToC b.toNat - target| ≤ 1 / 4)
      (hexact : ∀ n : ℤ, celsius = n / 2 → tempByteToC b.toNat = celsius) :
      Understood "temperature" text (.ok (.call (askFor target)))
  /-- the step nearest to the integer part; a step as it is -/
  | fan {text : String} {value target : ℚ} {percent : ℤ} {b : UInt8}
      (hnumber : exactValue decimal text = some value)
      (hread : Double.nearest value = .finite target)
      (hpercent : (Double.finite target).toInt = .ok percent)
      (hresolve : (ApiRequest.setFan percent).resolve = .ok (resolvedFan b))
      (hnear : 2 * |fanStepToPercent b.toNat - percent| ≤ 5)
      (hexact : ∀ k : ℤ, value = 5 + 5 * k → (fanStepToPercent b.toNat : ℚ) = value) :
      Understood "fan" text (.ok (.call (.setFan percent)))

variable {decimal} {config : BrokerConfig} {topic text : String}

theorem offers_climate (h : Offers decimal (climate config) topic text) :
    (topic = config.commandTopic "mode" ∧ text ∈ climateModes) ∨
      topic = config.commandTopic "temperature" ∧
        ∃ celsius, exactValue decimal text = some celsius ∧ 7 ≤ celsius ∧ celsius ≤ 35 := by
  cases h with
  | mode htopic hmodes hmode =>
      obtain rfl : config.commandTopic "mode" = topic := by
        simpa [climate, Dict.get, List.find?] using htopic
      obtain rfl : climateModes = _ := by simpa [climate, Dict.get, List.find?] using hmodes
      exact .inl ⟨rfl, hmode⟩
  | temperature htopic hnumber hlow hhigh =>
      obtain rfl : config.commandTopic "temperature" = topic := by
        simpa [climate, Dict.get, List.find?] using htopic
      refine .inr ⟨rfl, _, hnumber, ?_, ?_⟩
      · simpa [climate, Dict.get, List.find?, Setting.numberOr] using hlow
      · simpa [climate, Dict.get, List.find?, Setting.numberOr] using hhigh
  | number htopic => simp [climate, Dict.get, List.find?] at htopic

theorem offers_fanNumber (h : Offers decimal (fanNumber config) topic text) :
    topic = config.commandTopic "fan" ∧
      ∃ value, exactValue decimal text = some value ∧ 5 ≤ value ∧ value ≤ 100 := by
  cases h with
  | mode htopic => simp [fanNumber, Dict.get, List.find?] at htopic
  | temperature htopic => simp [fanNumber, Dict.get, List.find?] at htopic
  | number htopic hnumber hlow hhigh =>
      obtain rfl : config.commandTopic "fan" = topic := by
        simpa [fanNumber, Dict.get, List.find?] using htopic
      refine ⟨rfl, _, hnumber, ?_, ?_⟩
      · simpa [fanNumber, Dict.get, List.find?, Setting.numberOr] using hlow
      · simpa [fanNumber, Dict.get, List.find?, Setting.numberOr] using hhigh

theorem not_offers_ambient (h : Offers decimal (ambient config) topic text) : False := by
  cases h with
  | mode htopic => simp [ambient, Dict.get, List.find?] at htopic
  | temperature htopic => simp [ambient, Dict.get, List.find?] at htopic
  | number htopic => simp [ambient, Dict.get, List.find?] at htopic

/-- A name in lower case, without white space around it, of a mode that is unlocked. -/
theorem understood_mode {m : CommandMode} (hmode : m ∈ unlockedModes)
    (hstrip : strip text = text.toList) (hlower : text.toList.map Char.toLower = text.toList)
    (hname : CommandMode.ofName (upper text.toList) = some m) :
    Understood decimal "mode" text (dispatch decimal "mode" text) := by
  have hsame : lower text = text := String.toList_inj.mp (by rw [lower, String.toList_map, hlower])
  have hdispatch : dispatch decimal "mode" text = .ok (.call (.setMode text)) := by
    rw [dispatch, hstrip, String.ofList_toList, hsame]
  rw [hdispatch]
  refine .mode hmode ?_
  rw [ApiRequest.resolve, hstrip, hname]
  simp only [hmode, not_true_eq_false, if_false, hsame]

theorem understood_climateModes (hmode : text ∈ climateModes) :
    Understood decimal "mode" text (dispatch decimal "mode" text) := by
  simp only [climateModes, List.mem_cons, List.not_mem_nil, or_false] at hmode
  rcases hmode with rfl | rfl | rfl | rfl
  · exact understood_mode (m := .off) (by decide) (by decide +kernel) (by decide +kernel)
      (by decide +kernel)
  · exact understood_mode (m := .cool) (by decide) (by decide +kernel) (by decide +kernel)
      (by decide +kernel)
  · exact understood_mode (m := .heat) (by decide) (by decide +kernel) (by decide +kernel)
      (by decide +kernel)
  · exact understood_mode (m := .dry) (by decide) (by decide +kernel) (by decide +kernel)
      (by decide +kernel)

/-- A target in the range of the entity is between two bytes of the wire. -/
theorem understood_temperature {celsius : ℚ} (hnumber : exactValue decimal text = some celsius)
    (hlow : 7 ≤ celsius) (hhigh : celsius ≤ 35) :
    Understood decimal "temperature" text (dispatch decimal "temperature" text) := by
  obtain ⟨target, hread, hlow', hhigh'⟩ : ∃ target : ℚ, Double.nearest celsius = .finite target ∧
      ((7 : ℤ) : ℚ) ≤ target ∧ target ≤ ((35 : ℤ) : ℚ) :=
    Double.nearest_between (by norm_num) (by norm_num) (by exact_mod_cast hlow)
      (by exact_mod_cast hhigh)
  push_cast at hlow' hhigh'
  have hdispatch : dispatch decimal "temperature" text = .ok (.call (askFor target)) := by
    simp only [dispatch, number, parseFloat_of_exactValue hnumber, hread, bind, Except.bind, askFor]
  have hbound := Double.two_pow_le_overflowBound
  have hbelow : -Double.overflowBound < target * tempScale := by
    simp only [tempScale]
    linarith
  have habove : target * tempScale < Double.overflowBound := by
    simp only [tempScale]
    linarith
  have hindexLow : 14 ≤ Encode.halfDegrees.index roundHalfEven target := by
    refine Encode.halfDegrees.le_index nearest_roundHalfEven ?_
    rw [Encode.point_halfDegrees, tempScale]
    push_cast
    linarith
  have hindexHigh : Encode.halfDegrees.index roundHalfEven target ≤ 70 := by
    refine Encode.halfDegrees.index_le nearest_roundHalfEven ?_
    rw [Encode.point_halfDegrees, tempScale]
    push_cast
    linarith
  have hraw := (Encode.targetRaw_finite hbelow habove).mpr ⟨⟨by omega, by omega⟩, rfl⟩
  obtain ⟨b, hb⟩ := exists_byte hraw
  rw [hb] at hraw
  rw [hdispatch]
  refine .temperature hnumber hread (resolve_askFor hraw)
    (System.abs_byte_sub_le hbelow habove hraw) fun n hn => ?_
  have hsmall : |celsius| < 2 ^ (53 - 1) :=
    abs_lt.mpr ⟨by norm_num; linarith, by norm_num; linarith⟩
  have hsame := Double.nearest_eq_self (e := 1) (by norm_num) hsmall (n := n) (by rw [hn, pow_one])
  obtain rfl : celsius = target := Double.finite.inj (hsame.symm.trans hread)
  have hpoint : celsius = Encode.halfDegrees.point n := by
    rw [hn, Encode.point_halfDegrees, tempScale]
  rw [System.byte_eq_index hbelow habove hraw, hpoint, Rounding.Grid.snap,
    Encode.halfDegrees.index_point nearest_roundHalfEven]

/-- A value in the range of the entity is in that of the fan. -/
theorem understood_fan {value : ℚ} (hnumber : exactValue decimal text = some value)
    (hlow : 5 ≤ value) (hhigh : value ≤ 100) :
    Understood decimal "fan" text (dispatch decimal "fan" text) := by
  obtain ⟨target, hread, hlow', hhigh'⟩ : ∃ target : ℚ, Double.nearest value = .finite target ∧
      ((5 : ℤ) : ℚ) ≤ target ∧ target ≤ ((100 : ℤ) : ℚ) :=
    Double.nearest_between (by norm_num) (by norm_num) (by exact_mod_cast hlow)
      (by exact_mod_cast hhigh)
  push_cast at hlow' hhigh'
  have hpercent : (Double.finite target).toInt = .ok ⌊target⌋ := by
    rw [Double.toInt, if_neg (by linarith)]
  have hdispatch : dispatch decimal "fan" text = .ok (.call (.setFan ⌊target⌋)) := by
    simp only [dispatch, number, parseFloat_of_exactValue hnumber, hread, bind, Except.bind,
      hpercent]
  have hfloorLow : 5 ≤ ⌊target⌋ := Int.le_floor.mpr (by exact_mod_cast hlow')
  have hfloorHigh : ⌊target⌋ ≤ 100 := by
    have hle : ((⌊target⌋ : ℤ) : ℚ) ≤ (100 : ℤ) := (Int.floor_le target).trans hhigh'
    exact Int.cast_le.mp hle
  obtain ⟨b, hb, -, hresolve⟩ := resolve_setFan hfloorLow hfloorHigh
  have hstep : fanStepToPercent b.toNat =
      Encode.fanPercents.snap roundHalfEven (⌊target⌋ : ℚ) := by
    rw [Rounding.Grid.snap, Encode.index_fanPercents, Encode.point_fanPercents, hb]
  have hnear := Encode.fanPercents.abs_snap_sub_le nearest_roundHalfEven (⌊target⌋ : ℚ)
  rw [← hstep, show Encode.fanPercents.step = 5 from rfl] at hnear
  rw [hdispatch]
  refine .fan hnumber hread hpercent hresolve ?_ fun k hk => ?_
  · have hdouble : (2 : ℚ) * |(fanStepToPercent b.toNat : ℚ) - ⌊target⌋| ≤ 5 := by linarith
    exact_mod_cast hdouble
  · have hsmall : |value| < 2 ^ (53 - 0) :=
      abs_lt.mpr ⟨by norm_num; linarith, by norm_num; linarith⟩
    have hsame := Double.nearest_eq_self (e := 0) (by norm_num) hsmall (n := 5 + 5 * k)
      (by rw [hk]; push_cast; ring)
    obtain rfl : value = target := Double.finite.inj (hsame.symm.trans hread)
    have hpoint : ((⌊value⌋ : ℤ) : ℚ) = Encode.fanPercents.point k := by
      rw [hk, show (5 + 5 * k : ℚ) = ((5 + 5 * k : ℤ) : ℚ) by push_cast; ring, Int.floor_intCast]
      push_cast
      rfl
    rw [hstep, hpoint, Rounding.Grid.snap, Encode.fanPercents.index_point nearest_roundHalfEven,
      hk]
    rfl

/-- Whatever Home Assistant publishes by the configs it is given reaches the bridge, is
dispatched to the call of the API that it means, and is resolved to a command there. -/
theorem discovered_commands_understood {delivers : String → String → Prop}
    {sends : Dict String Setting → String → String → Prop} (hbroker : KeepsLevels delivers)
    (hhome : KeepsToOffers decimal config sends) (h : config.Ordinary)
    {entity : Dict String Setting} (hentity : entity ∈ (discoveryPayloads config).map (·.2))
    (hsends : sends entity topic text) :
    delivers config.commandWildcard topic ∧
      Understood decimal (commandName topic) text (dispatch decimal (commandName topic) text) := by
  have hheard (name : String) (hname : '/' ∉ name.toList) (hplus : '+' ∉ name.toList)
      (hhash : '#' ∉ name.toList)
      (hunderstood : Understood decimal name text (dispatch decimal name text)) :
      delivers config.commandWildcard (config.commandTopic name) ∧
        Understood decimal (commandName (config.commandTopic name)) text
          (dispatch decimal (commandName (config.commandTopic name)) text) := by
    have hplain := plain_commandTopic h hplus hhash
    rw [commandName_commandTopic hname]
    exact ⟨(commandWildcard_delivers hbroker h hplain).mpr ⟨name, rfl, hname⟩, hunderstood⟩
  have hoffers := hhome entity hentity topic text hsends
  simp only [discoveryPayloads, List.map_cons, List.map_nil, List.mem_cons, List.not_mem_nil,
    or_false] at hentity
  rcases hentity with rfl | rfl | rfl
  · rcases offers_climate hoffers with ⟨rfl, hmode⟩ | ⟨rfl, celsius, hnumber, hlow, hhigh⟩
    · exact hheard "mode" (by decide) (by decide) (by decide) (understood_climateModes hmode)
    · exact hheard "temperature" (by decide) (by decide) (by decide)
        (understood_temperature hnumber hlow hhigh)
  · obtain ⟨rfl, value, hnumber, hlow, hhigh⟩ := offers_fanNumber hoffers
    exact hheard "fan" (by decide) (by decide) (by decide) (understood_fan hnumber hlow hhigh)
  · exact (not_offers_ambient hoffers).elim

theorem discovered_commands_understood_fan :
    Levelwise ({} : BrokerConfig).commandWildcard (({} : BrokerConfig).commandTopic "fan") ∧
      Understood (fun _ => none) (commandName (({} : BrokerConfig).commandTopic "fan"))
        (toString 35) (dispatch (fun _ => none)
          (commandName (({} : BrokerConfig).commandTopic "fan")) (toString 35)) := by
  have hentity : fanNumber {} ∈ (discoveryPayloads {}).map (·.2) :=
    List.mem_cons_of_mem _ List.mem_cons_self
  have hnumber : exactValue (fun _ => none) (toString 35) = some ((35 : ℕ) : ℚ) :=
    exactValue_toString _ 35
  have hoffers : Offers (fun _ => none) (fanNumber {}) (({} : BrokerConfig).commandTopic "fan")
      (toString 35) := .number rfl hnumber (by decide) (by decide)
  exact discovered_commands_understood (fun _ _ _ _ => Iff.rfl) (fun _ _ _ _ h => h)
    ordinary_default hentity hoffers

/-- The mode it is shown is one of those it may ask for. -/
theorem haMode_mem_climateModes (snapshot : DeviceSnapshot) : haMode snapshot ∈ climateModes := by
  have hmapped (mode : String) : (haModeFor mode).getD "off" ∈ climateModes := by
    unfold haModeFor
    split <;> decide
  unfold haMode
  split
  · split
    · decide
    · exact hmapped _
  · decide

end

end Bedjet.Integrations
