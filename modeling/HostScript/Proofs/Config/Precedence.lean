import HostScript.Config.Load
import HostScript.Proofs.Number.Counting
import Mathlib.Tactic.ByContra

/-!
# What decides a setting

A configuration is made of the keys of a file and of two variables of the environment
(`Config.load`). Of several keys for one setting the last one counts (`Config.given`). A variable
writes over the key of its own spelling where that key stands, so a key of the other spelling
further down still counts more than the variable (`Config.Outlasts`).
-/

namespace HostScript

namespace Dict

variable {α : Type} {key : Text} {value : α} {entries before after : List (Text × α)}

/-- Writing over a key leaves its entry where it is. -/
theorem putEntry_append (old : α) (h : key ∉ before.map (·.1)) :
    putEntry key value (before ++ (key, old) :: after) = before ++ (key, value) :: after := by
  induction before with
  | nil => rw [List.nil_append, List.nil_append, putEntry, if_pos rfl]
  | cons entry before ih =>
    obtain ⟨hne, hrest⟩ := not_or.mp fun hmem => h (List.mem_cons.mpr hmem)
    rw [List.cons_append, List.cons_append, putEntry, if_neg (Ne.symm hne), ih hrest]

/-- Writing under a key leaves the entries of other keys. -/
theorem mem_put_of_ne {d : Dict α} {entry : Text × α} (h : entry ∈ d.entries)
    (hne : entry.1 ≠ key) : entry ∈ (d.put key value).entries := by
  obtain ⟨entries⟩ := d
  simp only [put] at h ⊢
  induction entries with
  | nil => exact absurd h List.not_mem_nil
  | cons first rest ih =>
    rw [putEntry]
    rcases List.mem_cons.mp h with rfl | h
    · rw [if_neg hne]
      exact List.mem_cons_self
    · split
      · exact List.mem_cons_of_mem _ h
      · exact List.mem_cons_of_mem _ (ih h)

end Dict

namespace Config

variable {entries before after : List (Text × Setting)} {key name field : Text} {v w : Setting}

/-! ## Keys -/

/-- A name without underscores is written in one way only. -/
theorem eq_of_fieldOfKey_eq (h : fieldOfKey key = name) (hname : .scalar '_' ∉ name) :
    key = name := by
  induction key generalizing name with
  | nil => exact h
  | cons c key ih =>
    subst h
    obtain ⟨hc, hrest⟩ := not_or.mp fun hmem => hname (List.mem_cons.mpr hmem)
    have hhead : ¬ c = .scalar '-' := by
      rintro rfl
      exact hc rfl
    rw [fieldOfKey, List.map_cons, if_neg hhead]
    exact congrArg (c :: ·) (ih rfl hrest)

/-- The timeout of requests is written with an underscore or a minus. -/
theorem fieldOfKey_eq_timeout_iff :
    fieldOfKey key = "http_timeout" ↔ key = "http_timeout" ∨ key = "http-timeout" := by
  constructor
  · intro h
    have hname : (Text.ofString "http_timeout") =
        Text.ofString "http" ++ (.scalar '_' :: Text.ofString "timeout") := rfl
    rw [hname] at h
    obtain ⟨first, rest, rfl, hfirst, hrest⟩ := List.map_eq_append_iff.mp h
    obtain ⟨c, last, rfl, hc, hlast⟩ := List.map_eq_cons_iff.mp hrest
    obtain rfl := eq_of_fieldOfKey_eq hfirst (by decide)
    obtain rfl := eq_of_fieldOfKey_eq hlast (by decide)
    by_cases hminus : c = .scalar '-'
    · subst hminus
      exact .inr rfl
    · rw [if_neg hminus] at hc
      subst hc
      exact .inl rfl
  · rintro (rfl | rfl)
    · rfl
    · rfl

/-! ## The last key for a setting -/

/-- What entries give a setting: the value under the last key for it. -/
def given : List (Text × Setting) → Text → Option Setting
  | [], _ => none
  | (key, v) :: rest, field => (given rest field).or (if fieldOfKey key = field then some v else none)

theorem given_append (entries more : List (Text × Setting)) (field : Text) :
    given (entries ++ more) field = (given more field).or (given entries field) := by
  induction entries with
  | nil => rw [List.nil_append, given, Option.or_none]
  | cons entry entries ih => rw [List.cons_append, given, given, ih, Option.or_assoc]

theorem given_eq_none_iff : given entries field = none ↔ ∀ e ∈ entries, fieldOfKey e.1 ≠ field := by
  induction entries with
  | nil => exact iff_of_true rfl nofun
  | cons entry entries ih =>
    rw [given, Option.or_eq_none_iff, ih, List.forall_mem_cons, and_comm]
    simp

theorem given_eq_some_iff :
    given entries field = some v ↔ ∃ before key after, entries = before ++ (key, v) :: after ∧
      fieldOfKey key = field ∧ ∀ e ∈ after, fieldOfKey e.1 ≠ field := by
  constructor
  · intro h
    induction entries with
    | nil => exact nomatch h
    | cons entry entries ih =>
      rw [given, Option.or_eq_some_iff] at h
      rcases h with h | ⟨hnone, h⟩
      · obtain ⟨before, key, after, rfl, hkey, hafter⟩ := ih h
        exact ⟨entry :: before, key, after, rfl, hkey, hafter⟩
      · by_cases hkey : fieldOfKey entry.1 = field
        · rw [if_pos hkey] at h
          obtain rfl := Option.some.inj h
          exact ⟨[], entry.1, entries, rfl, hkey, given_eq_none_iff.mp hnone⟩
        · rw [if_neg hkey] at h
          exact nomatch h
  · rintro ⟨before, key, after, rfl, hkey, hafter⟩
    rw [given_append, given, given_eq_none_iff.mpr hafter, if_pos hkey]
    rfl

/-- All keys are collected, and each setting has the value of the last key for it. -/
theorem collect_of_known (found : Dict Setting)
    (h : ∀ e ∈ entries, isField (fieldOfKey e.1) = true) :
    ∃ d, collect entries found = .ok d ∧
      ∀ field, d.get? field = (given entries field).or (found.get? field) := by
  induction entries generalizing found with
  | nil => exact ⟨found, rfl, fun _ => rfl⟩
  | cons entry entries ih =>
    obtain ⟨hfirst, hrest⟩ := List.forall_mem_cons.mp h
    obtain ⟨d, hd, hget⟩ := ih (found.put (fieldOfKey entry.1) entry.2) hrest
    refine ⟨d, ?_, fun field => ?_⟩
    · rw [collect, if_pos hfirst, hd]
    · rw [hget, given, Option.or_assoc]
      by_cases hfield : fieldOfKey entry.1 = field
      · rw [← hfield, Dict.get?_put_self, if_pos rfl]
        rfl
      · rw [Dict.get?_put_of_ne _ _ (Ne.symm hfield), if_neg hfield]
        rfl

/-- A key for no setting is a fault. -/
theorem collect_of_unknown (found : Dict Setting)
    (h : ∃ e ∈ entries, isField (fieldOfKey e.1) = false) :
    ∃ key, collect entries found = .error (.unknownKey key) ∧ isField (fieldOfKey key) = false := by
  induction entries generalizing found with
  | nil =>
    obtain ⟨e, he, -⟩ := h
    exact absurd he List.not_mem_nil
  | cons entry entries ih =>
    rw [collect]
    cases hfirst : isField (fieldOfKey entry.1) with
    | false => exact ⟨entry.1, rfl, hfirst⟩
    | true =>
      obtain ⟨e, he, hunknown⟩ := h
      rcases List.mem_cons.mp he with rfl | he
      · rw [hfirst] at hunknown
        exact nomatch hunknown
      · exact ih _ ⟨e, he, hunknown⟩

/-! ## Writing over a key -/

/-- Writing under a key leaves what the other settings are given. -/
theorem given_putEntry_of_ne (key : Text) (hne : fieldOfKey key ≠ field) :
    given (Dict.putEntry key v entries) field = given entries field := by
  induction entries with
  | nil => simp [Dict.putEntry, given, hne]
  | cons entry entries ih =>
    obtain ⟨k, u⟩ := entry
    rw [Dict.putEntry]
    split
    · next heq =>
      subst heq
      rw [given, given, if_neg hne, if_neg hne]
    · rw [given, given, ih]

/-- So what is written under a key does not depend on what is written for other settings. -/
theorem given_putEntry_putEntry {other : Text} (hne : fieldOfKey other ≠ field)
    (hkey : fieldOfKey key = field) :
    given (Dict.putEntry key v (Dict.putEntry other w entries)) field =
      given (Dict.putEntry key v entries) field := by
  have hdistinct : other ≠ key := by
    rintro rfl
    exact hne hkey
  induction entries with
  | nil => simp [Dict.putEntry, given, hdistinct, hne]
  | cons entry entries ih =>
    obtain ⟨k, u⟩ := entry
    rw [Dict.putEntry, Dict.putEntry]
    by_cases hother : k = other
    · subst hother
      rw [if_pos rfl, if_neg hdistinct, Dict.putEntry, if_neg hdistinct, given, given, if_neg hne,
        if_neg hne]
    · rw [if_neg hother, Dict.putEntry]
      split
      · rw [given, given, given_putEntry_of_ne other hne]
      · rw [given, given, ih]

/-- What is written under a key counts, unless another key for the same setting stands below. -/
theorem exists_given_putEntry (key : Text) (hkey : fieldOfKey key = field) (v : Setting)
    (hnodup : (entries.map (·.1)).Nodup) :
    ∃ w, given (Dict.putEntry key v entries) field = some w ∧
      (w = v ∨ ∃ before old between other after,
        entries = before ++ (key, old) :: (between ++ (other, w) :: after) ∧
          fieldOfKey other = field ∧ other ≠ key) := by
  by_cases hmem : key ∈ entries.map (·.1)
  · obtain ⟨⟨_, old⟩, hentry, rfl⟩ := List.mem_map.mp hmem
    obtain ⟨before, after, rfl⟩ := List.append_of_mem hentry
    rw [List.map_append, List.map_cons, List.nodup_append, List.nodup_cons] at hnodup
    obtain ⟨-, ⟨hafter, -⟩, hbefore⟩ := hnodup
    rw [Dict.putEntry_append old fun h => hbefore _ h _ List.mem_cons_self rfl, given_append, given,
      if_pos hkey]
    cases hgiven : given after field with
    | none => exact ⟨v, rfl, .inl rfl⟩
    | some w =>
      obtain ⟨between, other, rest, rfl, hother, -⟩ := given_eq_some_iff.mp hgiven
      refine ⟨w, rfl, .inr ⟨before, old, between, other, rest, rfl, hother, ?_⟩⟩
      rintro rfl
      exact hafter (by simp)
  · rw [Dict.putEntry_of_not_mem hmem, given_append, given, given, if_pos hkey]
    exact ⟨v, rfl, .inl rfl⟩

/-- Of the two keys for the timeout of requests, the one with a minus stands below the other. -/
def Outlasts (entries : List (Text × Setting)) (w : Setting) : Prop :=
  ∃ before old between after, entries = before ++ (Text.ofString "http_timeout", old) ::
    (between ++ (Text.ofString "http-timeout", w) :: after)

/-- A timeout that is written under the key with an underscore does not count if the other key
outlasts it. -/
theorem given_put_timeout (v : Setting) (hnodup : (entries.map (·.1)).Nodup) :
    (∀ w, Outlasts entries w →
      given (Dict.putEntry "http_timeout" v entries) "http_timeout" = some w) ∧
    ((∀ w, ¬ Outlasts entries w) →
      given (Dict.putEntry "http_timeout" v entries) "http_timeout" = some v) := by
  constructor
  · rintro w ⟨before, old, between, after, rfl⟩
    rw [List.map_append, List.map_cons, List.nodup_append, List.nodup_cons, List.map_append,
      List.map_cons, List.nodup_append, List.nodup_cons] at hnodup
    obtain ⟨-, ⟨hunderscore, -, ⟨hminus, -⟩, -⟩, hbefore⟩ := hnodup
    rw [Dict.putEntry_append old fun h => hbefore _ h _ List.mem_cons_self rfl]
    refine given_eq_some_iff.mpr ⟨before ++ (Text.ofString "http_timeout", v) :: between,
      "http-timeout", after, by simp, rfl, fun e he hfield => ?_⟩
    have hkey : e.1 ∈ after.map (·.1) := List.mem_map_of_mem he
    rcases fieldOfKey_eq_timeout_iff.mp hfield with heq | heq
    · exact hunderscore (List.mem_append_right _ (List.mem_cons_of_mem _ (heq ▸ hkey)))
    · exact hminus (heq ▸ hkey)
  · intro hnone
    obtain ⟨w, hw, rfl | ⟨before, old, between, other, after, rfl, hother, hne⟩⟩ :=
      exists_given_putEntry "http_timeout" rfl v hnodup
    · exact hw
    · obtain rfl := (fieldOfKey_eq_timeout_iff.mp hother).resolve_left hne
      exact absurd ⟨before, old, between, after, rfl⟩ (hnone w)

/-- There is one key only for `debug`, so what is written under it counts. -/
theorem given_put_debug (v : Setting) (hnodup : (entries.map (·.1)).Nodup) :
    given (Dict.putEntry "debug" v entries) "debug" = some v := by
  obtain ⟨w, hw, rfl | ⟨before, old, between, other, after, rfl, hother, hne⟩⟩ :=
    exists_given_putEntry "debug" rfl v hnodup
  · exact hw
  · exact absurd (eq_of_fieldOfKey_eq hother (by decide)) hne

end Config

/-! ## Ranges -/

namespace Setting

/-- A number, or a truth value as a number, above zero. -/
def IsPositive : Setting → Prop
  | boolean b => b = true
  | integer n => 0 < n
  | number x => 0 < x
  | _ => False

/-- A number, or a truth value as a number, that is not below zero. -/
def IsNotNegative : Setting → Prop
  | boolean _ => True
  | integer n => 0 ≤ n
  | number x => 0 ≤ x
  | _ => False

/-- The number that is none. -/
def IsNaN : Setting → Prop
  | number x => x.isNaN = true
  | _ => False

end Setting

namespace Number

open Float.Model Float.Model.UnpackedFloat

theorem zero_lt_or_isNaN_iff (x : Float) :
    0 < x ∨ x.isNaN = true ↔ ¬ x < 0 ∧ (x == 0) = false := by
  have hlt : 0 < x ↔ UnpackedFloat.lt (.zero .positive) x.toModel.unpack = true := by
    change decide ((0 : Float).toModel < x.toModel) = true ↔ _
    rw [decide_eq_true_iff]
    rfl
  have heq : (x == 0) = x.toModel.unpack.beq (.zero .positive) := rfl
  have hnan : x.isNaN = x.toModel.unpack.isNaN := rfl
  rw [hlt, heq, hnan, lt_zero_iff]
  generalize x.toModel.unpack = u
  cases u with
  | infinity s => cases s <;> decide
  | notANumber => decide
  | zero s => cases s <;> decide
  | finite s m e hm =>
    cases s <;> simp [UnpackedFloat.lt, UnpackedFloat.beq, UnpackedFloat.compare, UnpackedFloat.isNaN]

theorem zero_le_or_isNaN_iff (x : Float) : 0 ≤ x ∨ x.isNaN = true ↔ ¬ x < 0 := by
  have hle : 0 ≤ x ↔ UnpackedFloat.le (.zero .positive) x.toModel.unpack = true := le_iff 0 x
  have hnan : x.isNaN = x.toModel.unpack.isNaN := rfl
  rw [hle, hnan, lt_zero_iff]
  generalize x.toModel.unpack = u
  cases u with
  | infinity s => cases s <;> decide
  | notANumber => decide
  | zero s => cases s <;> decide
  | finite s m e hm =>
    cases s <;> simp [UnpackedFloat.lt, UnpackedFloat.le, UnpackedFloat.compare, UnpackedFloat.isNaN]

end Number

namespace Config

theorem checkPositive_eq_ok_iff (field : String) (s : Setting) :
    checkPositive field s = .ok () ↔ s.IsPositive ∨ s.IsNaN := by
  cases s with
  | boolean b => cases b <;> simp [checkPositive, Setting.signOf?, Setting.IsPositive, Setting.IsNaN]
  | integer n =>
    have hsplit : 0 < n ↔ ¬ (n < 0 ∨ n = 0) := by omega
    simp only [checkPositive, Setting.signOf?, Setting.IsPositive, Setting.IsNaN, or_false, hsplit]
    split <;> simp_all
  | number x =>
    rw [show (Setting.number x).IsPositive ∨ (Setting.number x).IsNaN ↔ 0 < x ∨ x.isNaN = true from
      Iff.rfl, Number.zero_lt_or_isNaN_iff]
    rw [← Bool.not_eq_true, ← not_or]
    simp only [checkPositive, Setting.signOf?, Bool.or_eq_true, decide_eq_true_eq]
    split <;> simp_all
  | _ => simp [checkPositive, Setting.signOf?, Setting.IsPositive, Setting.IsNaN]

theorem checkNotNegative_eq_ok_iff (field : String) (s : Setting) :
    checkNotNegative field s = .ok () ↔ s.IsNotNegative ∨ s.IsNaN := by
  cases s with
  | boolean b => exact iff_of_true rfl (.inl trivial)
  | integer n =>
    simp only [checkNotNegative, Setting.signOf?, Setting.IsNotNegative, Setting.IsNaN, or_false,
      ← not_lt]
    split <;> simp_all
  | number x =>
    rw [show (Setting.number x).IsNotNegative ∨ (Setting.number x).IsNaN ↔ 0 ≤ x ∨ x.isNaN = true
      from Iff.rfl, Number.zero_le_or_isNaN_iff]
    simp only [checkNotNegative, Setting.signOf?]
    split <;> simp_all
  | _ => simp [checkNotNegative, Setting.signOf?, Setting.IsNotNegative, Setting.IsNaN]

/-- The settings that have a range are within it, but for NaN. -/
structure Valid (c : Config) : Prop where
  httpTimeout : c.httpTimeout.IsPositive ∨ c.httpTimeout.IsNaN
  httpRetries : c.httpRetries.IsNotNegative ∨ c.httpRetries.IsNaN
  rpcTimeout : c.rpcTimeout = .null ∨ c.rpcTimeout.IsPositive ∨ c.rpcTimeout.IsNaN

theorem valid_of_validate {c : Config} (h : c.validate = .ok ()) : c.Valid := by
  unfold validate at h
  cases htimeout : checkPositive "http_timeout" c.httpTimeout with
  | error fault => rw [htimeout] at h; exact nomatch h
  | ok u =>
    rw [htimeout] at h
    cases hretries : checkNotNegative "http_retries" c.httpRetries with
    | error fault => rw [hretries] at h; exact nomatch h
    | ok u =>
      rw [hretries] at h
      refine ⟨(checkPositive_eq_ok_iff _ _).mp htimeout, (checkNotNegative_eq_ok_iff _ _).mp hretries,
        ?_⟩
      cases hrpc : c.rpcTimeout with
      | null => exact .inl rfl
      | _ =>
        rw [hrpc] at h
        exact .inr ((checkPositive_eq_ok_iff "rpc_timeout" _).mp h)

/-! ## Configurations -/

/-- The settings of a file, if there is one. -/
def fileSettings (read : SettingsReader) (file : Option (Text × Text)) :
    Except ConfigFault (Dict Setting) :=
  match file with
  | some (name, text) => readSettings read name text
  | none => .ok .empty

theorem load_eq (read : SettingsReader) (accounts : Accounts) (file : Option (Text × Text))
    (environment : Dict Text) :
    load read accounts file environment =
      (fileSettings read file >>= fun settings =>
        withEnvironment environment settings >>= ofSettings accounts) := by
  cases file <;> rfl

theorem nodup_keys_fileSettings {read : SettingsReader} {file : Option (Text × Text)}
    {settings : Dict Setting} (h : fileSettings read file = .ok settings) : settings.keys.Nodup := by
  unfold fileSettings at h
  split at h
  · unfold readSettings at h
    split at h
    · exact nomatch h
    · obtain rfl := Except.ok.inj h
      exact List.nodup_nil
    · obtain rfl := Except.ok.inj h
      exact Dict.nodup_keys_ofList _
    · exact nomatch h
  · obtain rfl := Except.ok.inj h
    exact List.nodup_nil

/-- The settings with the variable for `debug` written over them. -/
def withDebug (environment : Dict Text) (settings : Dict Setting) : Dict Setting :=
  match environment.get? "RSL_DEBUG" with
  | some t => settings.put "debug" (.boolean (isOnWord t))
  | none => settings

theorem withEnvironment_eq (environment : Dict Text) (settings : Dict Setting) :
    withEnvironment environment settings =
      match environment.get? "RSL_HTTP_TIMEOUT" with
      | some t =>
        match Number.float? t with
        | some x => .ok ((withDebug environment settings).put "http_timeout" (.number x))
        | none => .error (.timeoutNotNumber t)
      | none => .ok (withDebug environment settings) := rfl

section

variable {environment : Dict Text} {settings d : Dict Setting} {accounts : Accounts}
  {config : Config}

theorem given_withDebug_of_ne (h : field ≠ Text.ofString "debug") :
    given (withDebug environment settings).entries field = given settings.entries field := by
  unfold withDebug
  split
  · exact given_putEntry_of_ne "debug" (Ne.symm h)
  · rfl

/-- What is written for the timeout does not depend on the variable for `debug`. -/
theorem given_put_timeout_withDebug (v : Setting) :
    given ((withDebug environment settings).put "http_timeout" v).entries "http_timeout" =
      given (settings.put "http_timeout" v).entries "http_timeout" := by
  unfold withDebug
  split
  · exact given_putEntry_putEntry (by decide) rfl
  · rfl

theorem given_withDebug (hnodup : settings.keys.Nodup) :
    (∀ t, environment.get? "RSL_DEBUG" = some t →
      given (withDebug environment settings).entries "debug" = some (.boolean (isOnWord t))) ∧
    (environment.get? "RSL_DEBUG" = none →
      given (withDebug environment settings).entries "debug" = given settings.entries "debug") := by
  constructor
  · intro t ht
    simp only [withDebug, ht]
    exact given_put_debug _ hnodup
  · intro hnone
    simp only [withDebug, hnone]

/-- Variables are not written over a key for no setting. -/
theorem mem_of_withEnvironment (h : withEnvironment environment settings = .ok d)
    {e : Text × Setting} (he : e ∈ settings.entries)
    (hunknown : isField (fieldOfKey e.1) = false) : e ∈ d.entries := by
  have hne {name : Text} (hname : isField (fieldOfKey name) = true) : e.1 ≠ name := by
    rintro rfl
    rw [hname] at hunknown
    exact nomatch hunknown
  have hdebug : e ∈ (withDebug environment settings).entries := by
    unfold withDebug
    split
    · exact Dict.mem_put_of_ne he (hne (by decide))
    · exact he
  rw [withEnvironment_eq] at h
  split at h
  · split at h
    · obtain rfl := Except.ok.inj h
      exact Dict.mem_put_of_ne hdebug (hne (by decide))
    · exact nomatch h
  · obtain rfl := Except.ok.inj h
    exact hdebug

/-- A key for no setting is a fault. -/
theorem exists_ofSettings_eq_unknownKey
    (h : ∃ e ∈ d.entries, isField (fieldOfKey e.1) = false) :
    ∃ key, ofSettings accounts d = .error (.unknownKey key) ∧ isField (fieldOfKey key) = false := by
  obtain ⟨key, hcollect, hkey⟩ := collect_of_unknown .empty h
  refine ⟨key, ?_, hkey⟩
  rw [ofSettings, hcollect]
  rfl

/-- What a configuration has from the settings that it is made of. -/
theorem of_ofSettings_eq_ok (h : ofSettings accounts d = .ok config) :
    (∀ e ∈ d.entries, isField (fieldOfKey e.1) = true) ∧
    location accounts (given d.entries "working_dir") = .ok config.workingDir ∧
    location accounts (given d.entries "bootstrap") = .ok config.bootstrap ∧
    config.httpTimeout = (given d.entries "http_timeout").getD default.httpTimeout ∧
    config.httpRetries = (given d.entries "http_retries").getD default.httpRetries ∧
    config.followRedirects = (given d.entries "follow_redirects").getD default.followRedirects ∧
    config.rpcTimeout = (given d.entries "rpc_timeout").getD default.rpcTimeout ∧
    config.loadBootstrap = (given d.entries "load_bootstrap").getD default.loadBootstrap ∧
    config.debug = (given d.entries "debug").getD default.debug ∧ config.Valid := by
  by_cases hknown : ∀ e ∈ d.entries, isField (fieldOfKey e.1) = true
  · obtain ⟨found, hcollect, hget⟩ := collect_of_known .empty hknown
    have hgiven (field : Text) : found.get? field = given d.entries field := by
      rw [hget, Dict.get?_empty, Option.or_none]
    unfold ofSettings at h
    rw [hcollect] at h
    simp only [bind, Except.bind, hgiven] at h
    split at h
    · exact nomatch h
    · next directory hdirectory =>
      split at h
      · exact nomatch h
      · next boot hboot =>
        split at h
        · exact nomatch h
        · next u hvalid =>
          obtain rfl := Except.ok.inj h
          exact ⟨hknown, hdirectory, hboot, rfl, rfl, rfl, rfl, rfl, rfl, valid_of_validate hvalid⟩
  · exfalso
    push Not at hknown
    obtain ⟨e, he, hunknown⟩ := hknown
    obtain ⟨key, hfault, -⟩ := @exists_ofSettings_eq_unknownKey d accounts
      ⟨e, he, Bool.eq_false_iff.mpr hunknown⟩
    rw [hfault] at h
    exact nomatch h

/-- How a configuration comes from the settings of a file and an environment. -/
structure Follows (accounts : Accounts) (settings : Dict Setting) (environment : Dict Text)
    (config : Config) : Prop where
  debug_of_set : ∀ t, environment.get? "RSL_DEBUG" = some t → config.debug = .boolean (isOnWord t)
  debug_of_unset : environment.get? "RSL_DEBUG" = none →
    config.debug = (given settings.entries "debug").getD default.debug
  timeout_of_set : ∀ t, environment.get? "RSL_HTTP_TIMEOUT" = some t →
    ∃ x, Number.float? t = some x ∧
      (∀ w, Outlasts settings.entries w → config.httpTimeout = w) ∧
      ((∀ w, ¬ Outlasts settings.entries w) → config.httpTimeout = .number x)
  timeout_of_unset : environment.get? "RSL_HTTP_TIMEOUT" = none →
    config.httpTimeout = (given settings.entries "http_timeout").getD default.httpTimeout
  httpRetries : config.httpRetries = (given settings.entries "http_retries").getD default.httpRetries
  followRedirects : config.followRedirects =
    (given settings.entries "follow_redirects").getD default.followRedirects
  rpcTimeout : config.rpcTimeout = (given settings.entries "rpc_timeout").getD default.rpcTimeout
  loadBootstrap : config.loadBootstrap =
    (given settings.entries "load_bootstrap").getD default.loadBootstrap
  workingDir : location accounts (given settings.entries "working_dir") = .ok config.workingDir
  bootstrap : location accounts (given settings.entries "bootstrap") = .ok config.bootstrap
  valid : config.Valid

/-- The settings that variables have been written into, one after another. -/
theorem given_of_withEnvironment (h : withEnvironment environment settings = .ok d) :
    (∀ field, field ≠ Text.ofString "http_timeout" →
      given d.entries field = given (withDebug environment settings).entries field) ∧
    (∀ t, environment.get? "RSL_HTTP_TIMEOUT" = some t → ∃ x, Number.float? t = some x ∧
      given d.entries "http_timeout" =
        given (settings.put "http_timeout" (.number x)).entries "http_timeout") ∧
    (environment.get? "RSL_HTTP_TIMEOUT" = none →
      given d.entries "http_timeout" = given settings.entries "http_timeout") := by
  rw [withEnvironment_eq] at h
  split at h
  · next t ht =>
    split at h
    · next x hx =>
      obtain rfl := Except.ok.inj h
      refine ⟨fun field hne => given_putEntry_of_ne "http_timeout" (Ne.symm hne),
        fun t' ht' => ?_, fun hnone => ?_⟩
      · obtain rfl := Option.some.inj (ht.symm.trans ht')
        exact ⟨x, hx, given_put_timeout_withDebug _⟩
      · rw [ht] at hnone
        exact nomatch hnone
    · exact nomatch h
  · next hnone =>
    obtain rfl := Except.ok.inj h
    refine ⟨fun _ _ => rfl, fun t ht => ?_, fun _ => given_withDebug_of_ne (by decide)⟩
    rw [hnone] at ht
    exact nomatch ht

/-- A text in the variable for the timeout that is no number is the only fault of an environment. -/
theorem exists_of_withEnvironment_eq_error {fault : ConfigFault}
    (h : withEnvironment environment settings = .error fault) :
    ∃ t, fault = .timeoutNotNumber t ∧ Number.float? t = none := by
  rw [withEnvironment_eq] at h
  split at h
  · next t ht =>
    split at h
    · exact nomatch h
    · next hx => exact ⟨t, (Except.error.inj h).symm, hx⟩
  · exact nomatch h

/-- The settings of the file decide, but for the two that have a variable. -/
theorem follows_of_withEnvironment (hnodup : settings.keys.Nodup)
    (hwritten : withEnvironment environment settings = .ok d)
    (h : ofSettings accounts d = .ok config) : Follows accounts settings environment config := by
  obtain ⟨hothers, hset, hunset⟩ := given_of_withEnvironment hwritten
  have hother (field : Text) (htimeout : field ≠ Text.ofString "http_timeout")
      (hdebug : field ≠ Text.ofString "debug") :
      given d.entries field = given settings.entries field := by
    rw [hothers field htimeout, given_withDebug_of_ne hdebug]
  obtain ⟨-, hdirectory, hboot, htimeout, hretries, hredirects, hrpc, hload, hdebug, hvalid⟩ :=
    of_ofSettings_eq_ok h
  rw [hother _ (by decide) (by decide)] at hdirectory hboot hretries hredirects hrpc hload
  rw [hothers _ (by decide)] at hdebug
  obtain ⟨hdebugSet, hdebugUnset⟩ := @given_withDebug environment settings hnodup
  exact
    { debug_of_set := fun t ht => by rw [hdebug, hdebugSet t ht]; rfl
      debug_of_unset := fun hnone => by rw [hdebug, hdebugUnset hnone]
      timeout_of_set := fun t ht => by
        obtain ⟨x, hx, hgiven⟩ := hset t ht
        obtain ⟨hlasts, hfalls⟩ := given_put_timeout (.number x) hnodup
        refine ⟨x, hx, fun w hw => ?_, fun hnone => ?_⟩
        · rw [htimeout, hgiven]
          exact congrArg (Option.getD · _) (hlasts w hw)
        · rw [htimeout, hgiven]
          exact congrArg (Option.getD · _) (hfalls hnone)
      timeout_of_unset := fun hnone => by rw [htimeout, hunset hnone]
      httpRetries := hretries
      followRedirects := hredirects
      rpcTimeout := hrpc
      loadBootstrap := hload
      workingDir := hdirectory
      bootstrap := hboot
      valid := hvalid }

/-- What decides the settings of a configuration that is loaded, whatever library reads the file, and
that a key for no setting is a fault. -/
theorem load_decides {read : SettingsReader} {file : Option (Text × Text)}
    (hfile : fileSettings read file = .ok settings) (accounts : Accounts)
    (environment : Dict Text) :
    (∀ config, load read accounts file environment = .ok config →
      Follows accounts settings environment config) ∧
    ((∃ e ∈ settings.entries, isField (fieldOfKey e.1) = false) →
      (∃ key, load read accounts file environment = .error (.unknownKey key) ∧
        isField (fieldOfKey key) = false) ∨
      ∃ t, load read accounts file environment = .error (.timeoutNotNumber t) ∧
        Number.float? t = none) := by
  have hnodup := nodup_keys_fileSettings hfile
  rw [load_eq, hfile]
  change
    (∀ config, (withEnvironment environment settings >>= ofSettings accounts) = .ok config → _) ∧
    (_ → (∃ key, (withEnvironment environment settings >>= ofSettings accounts) = _ ∧ _) ∨
      ∃ t, (withEnvironment environment settings >>= ofSettings accounts) = _ ∧ _)
  cases hwritten : withEnvironment environment settings with
  | error fault =>
    obtain ⟨t, rfl, ht⟩ := exists_of_withEnvironment_eq_error hwritten
    exact ⟨fun config h => (nomatch h), fun _ => .inr ⟨t, rfl, ht⟩⟩
  | ok d =>
    refine ⟨fun config h => follows_of_withEnvironment hnodup hwritten h, ?_⟩
    rintro ⟨e, he, hunknown⟩
    exact .inl (exists_ofSettings_eq_unknownKey
      ⟨e, mem_of_withEnvironment hwritten he hunknown, hunknown⟩)

end

/-! ## Files with both spellings -/

/-- The integer that a setting is. -/
def integer? : Setting → Option ℤ
  | .integer n => some n
  | _ => none

/-- Whether a setting is a number that is not above zero. -/
def isNotAbove : Setting → Bool
  | .number x => !decide (0 < x)
  | _ => false

theorem eq_integer_of_integer? {s : Setting} {n : ℤ} (h : integer? s = some n) : s = .integer n := by
  cases s with
  | integer m => exact congrArg Setting.integer (Option.some.inj h)
  | _ => exact nomatch h

theorem not_isPositive_of_isNotAbove {s : Setting} (h : isNotAbove s = true) : ¬ s.IsPositive := by
  cases s with
  | number x => simpa [isNotAbove, Setting.IsPositive] using h
  | _ => exact nomatch h

/-- What is computed of a configuration is true of the one that is loaded. -/
theorem exists_of_toOption_any {x : Except ConfigFault Config} {p : Config → Bool}
    (h : x.toOption.any p = true) : ∃ config, x = .ok config ∧ p config = true := by
  cases x with
  | error fault => exact nomatch h
  | ok config => exact ⟨config, rfl, h⟩

/-- A file with both spellings of the timeout. -/
def bothSpellings : Text := "http_timeout: 1\nhttp-timeout: 2\n"

/-- A file with a timeout that is no number. -/
def notANumber : Text := "http_timeout: .nan\n"

/-- A reader of settings files, as far as it knows these two. -/
def readTimeouts : SettingsReader := fun t =>
  if t = bothSpellings then
    .ok (.mapping [("http_timeout", .integer 1), ("http-timeout", .integer 2)])
  else if t = notANumber then .ok (.mapping [("http_timeout", .number (0 / 0))])
  else .error ⟨"ParserError", "not known"⟩

/-- The accounts of a machine that knows none. -/
def noAccounts : Accounts := fun _ => none

/-- The variable for `debug` decides. -/
theorem load_decides_bothSpellings :
    ∃ config, load readTimeouts noAccounts (some ("rsl.yaml", bothSpellings))
        ⟨[("RSL_DEBUG", "1")]⟩ = .ok config ∧
      config.debug = .boolean true ∧ config.Valid := by
  have hread : (fileSettings readTimeouts (some ("rsl.yaml", bothSpellings))).toOption.isSome =
      true := by decide +kernel
  have hload : (load readTimeouts noAccounts (some ("rsl.yaml", bothSpellings))
      ⟨[("RSL_DEBUG", "1")]⟩).toOption.any (fun _ => true) = true := by decide +kernel
  obtain ⟨config, hconfig, -⟩ := exists_of_toOption_any hload
  cases hsettings : fileSettings readTimeouts (some ("rsl.yaml", bothSpellings)) with
  | error fault => rw [hsettings] at hread; exact nomatch hread
  | ok settings =>
    have hfollows := (load_decides hsettings noAccounts ⟨[("RSL_DEBUG", "1")]⟩).1 config hconfig
    exact ⟨config, hconfig, hfollows.debug_of_set "1" rfl, hfollows.valid⟩

/-- The variable for the timeout does not decide when the key with a minus stands last in the file,
and a timeout that is no number is accepted. -/
theorem timeout_of_file_outlasts :
    (∃ config, load readTimeouts noAccounts (some ("rsl.yaml", bothSpellings))
        ⟨[("RSL_HTTP_TIMEOUT", "9")]⟩ = .ok config ∧
      config.httpTimeout = .integer 2) ∧
    ∃ config, load readTimeouts noAccounts (some ("rsl.yaml", notANumber)) .empty = .ok config ∧
      ¬ config.httpTimeout.IsPositive := by
  have hlasts : (load readTimeouts noAccounts (some ("rsl.yaml", bothSpellings))
      ⟨[("RSL_HTTP_TIMEOUT", "9")]⟩).toOption.any
      (fun config => integer? config.httpTimeout = some 2) = true := by decide +kernel
  have hnan : (load readTimeouts noAccounts (some ("rsl.yaml", notANumber)) .empty).toOption.any
      (fun config => isNotAbove config.httpTimeout) = true := by decide +kernel
  obtain ⟨config, hconfig, hinteger⟩ := exists_of_toOption_any hlasts
  obtain ⟨config', hconfig', habove⟩ := exists_of_toOption_any hnan
  exact ⟨⟨config, hconfig, eq_integer_of_integer? (of_decide_eq_true hinteger)⟩,
    ⟨config', hconfig', not_isPositive_of_isNotAbove habove⟩⟩

end Config

end HostScript
