import Mathlib.Control.Monad.Basic
import QueryOutline.CommandLine.Run

/-!
Settings files that are refused. A file is meant to give settings or to be refused with a
message. Three kinds of files do neither: those whose bytes are no text, those with a scalar or
a nesting that cannot be read although the text is well formed, and mappings with a key that is
no text. On the other side a document that counts as blank is taken for an empty mapping,
whatever its type is.
-/

namespace QueryOutline

namespace Settings

/-- What the bytes of a settings file are read as. -/
inductive Loaded where
  | undecodable
  | faulty (fault : Yaml.Fault)
  | document (data : Value)

namespace Loaded

def ofBytes (content : List UInt8) : Loaded :=
  match Text.ofBytes? content with
  | none => undecodable
  | some text =>
      match Yaml.load text with
      | .ok data => document data
      | .error fault => faulty fault

/-- Settings that are read so are at fault, and no message says why. -/
def Escapes : Loaded → Prop
  | undecodable => True
  | faulty fault => fault ≠ .malformed
  | document (.mapping entries) => ∃ e ∈ entries, e.1.isAnyText = false
  | document _ => False

end Loaded

variable {d : Defaults} {path : String}

def ofLoaded (d : Defaults) (path : String) : Loaded → Except SettingsFault Settings
  | .undecodable => .error .undecodable
  | .faulty .malformed => .error (.unreadable path)
  | .faulty fault => .error (.badData fault)
  | .document data => ofData d path data

theorem ofFile_file (d : Defaults) (path : String) (content : List UInt8) :
    ofFile d path (.file content) = ofLoaded d path (.ofBytes content) := by
  simp only [ofFile, Loaded.ofBytes]
  cases Text.ofBytes? content with
  | none => rfl
  | some text =>
      dsimp only
      cases Yaml.load text with
      | ok data => rfl
      | error fault => cases fault <;> rfl

theorem ofData_of_isBlank {data : Value} (h : data.isBlank = true) :
    ofData d path data = .ok (ofDefaults d) := by
  rw [ofData, h]
  rfl

theorem ofData_mapping (entries : List (Value × Value)) :
    ofData d path (.mapping entries) =
      if entries.any (fun e => !e.1.isAnyText) then .error .foreignKey
      else match ofEntries d (extendStyles entries) with
        | .ok s => .ok s
        | .failed problems => .error (.invalid path problems) := by
  cases entries <;> rfl

theorem ofData_of_not_mapping {data : Value} (hblank : data.isBlank = false)
    (h : ∀ entries, data ≠ .mapping entries) : ofData d path data = .error (.notMapping path) := by
  rw [ofData, hblank]
  cases data with
  | mapping entries => exact absurd rfl (h entries)
  | _ => rfl

theorem ofLoaded_faulty {fault : Yaml.Fault} (h : fault ≠ .malformed) :
    ofLoaded d path (.faulty fault) = .error (.badData fault) := by
  cases fault with
  | malformed => contradiction
  | _ => rfl

theorem ofData_mapping_escapes_iff (d : Defaults) (path : String)
    (entries : List (Value × Value)) :
    (∃ fault, ofData d path (.mapping entries) = .error fault ∧ fault.message? = none) ↔
      ∃ e ∈ entries, e.1.isAnyText = false := by
  have hany : entries.any (fun e => !e.1.isAnyText) = true ↔
      ∃ e ∈ entries, e.1.isAnyText = false := by
    simp only [List.any_eq_true, Bool.not_eq_true']
  rw [← hany, ofData_mapping]
  cases entries.any fun e => !e.1.isAnyText with
  | true => exact ⟨fun _ => rfl, fun _ => ⟨_, rfl, rfl⟩⟩
  | false =>
      refine ⟨fun ⟨fault, herror, hmessage⟩ => ?_, fun h => absurd h Bool.false_ne_true⟩
      -- the problems of an attribute always come with a message
      cases hread : ofEntries d (extendStyles entries) with
      | ok s => simp [hread] at herror
      | failed problems =>
          obtain rfl : SettingsFault.invalid path problems = fault := by simpa [hread] using herror
          contradiction

theorem ofData_escapes_iff (d : Defaults) (path : String) (data : Value) :
    (∃ fault, ofData d path data = .error fault ∧ fault.message? = none) ↔
      (Loaded.document data).Escapes := by
  by_cases hmapping : ∃ entries, data = .mapping entries
  · obtain ⟨entries, rfl⟩ := hmapping
    exact ofData_mapping_escapes_iff d path entries
  · have hne (entries : List (Value × Value)) : data ≠ .mapping entries :=
      fun h => hmapping ⟨entries, h⟩
    have hstays : ¬ (Loaded.document data).Escapes := by
      cases data with
      | mapping entries => exact absurd rfl (hne entries)
      | _ => exact id
    refine ⟨fun ⟨fault, herror, hmessage⟩ => ?_, fun h => absurd h hstays⟩
    cases hblank : data.isBlank with
    | true =>
        rw [ofData_of_isBlank hblank] at herror
        contradiction
    | false =>
        rw [ofData_of_not_mapping hblank hne] at herror
        obtain rfl := Except.error.inj herror
        contradiction

theorem ofLoaded_escapes_iff (d : Defaults) (path : String) (r : Loaded) :
    (∃ fault, ofLoaded d path r = .error fault ∧ fault.message? = none) ↔ r.Escapes := by
  cases r with
  | undecodable => exact ⟨fun _ => trivial, fun _ => ⟨_, rfl, rfl⟩⟩
  | faulty fault =>
      by_cases hfault : fault = .malformed
      · rw [hfault]
        refine ⟨fun ⟨fault, herror, hmessage⟩ => ?_, fun h => absurd rfl h⟩
        obtain rfl := Except.error.inj herror
        contradiction
      · exact ⟨fun _ => hfault, fun _ => ⟨_, ofLoaded_faulty hfault, rfl⟩⟩
  | document data => exact ofData_escapes_iff d path data

end Settings

namespace CommandLine.Run

def namedPath? (a : Arguments) : Option String :=
  ((a.value? .config).filter (· != "")).map Settings.cleanPath

def settingsPath (a : Arguments) : String :=
  (namedPath? a).getD Settings.defaultFile

/-- The settings of a run, whatever bytes are read as. Only the default file may be missing. -/
def settingsBy (read : List UInt8 → Settings.Loaded) (w : Surroundings) (a : Arguments) :
    Except SettingsFault (Settings × Option String) :=
  let path := settingsPath a
  match w.entry path with
  | .file content => (Settings.ofLoaded w.defaults path (read content)).map (·, some path)
  | .directory => .error (.unreadable path)
  | .missing =>
      match namedPath? a with
      | some _ => .error (.unreadable path)
      | none => .ok (.ofDefaults w.defaults, none)

theorem settings_eq_settingsBy (w : Surroundings) (a : Arguments) :
    settings w a = settingsBy .ofBytes w a := by
  have hfile (path : String) (content : List UInt8) :
      (do return (← Settings.ofFile w.defaults path (.file content), some path)) =
        (Settings.ofLoaded w.defaults path (.ofBytes content)).map (·, some path) := by
    rw [Settings.ofFile_file]
    cases Settings.ofLoaded w.defaults path (.ofBytes content) <;> rfl
  simp only [settings, settingsBy, settingsPath, namedPath?]
  cases ((a.value? .config).filter (· != "")).map Settings.cleanPath with
  | some path =>
      dsimp only [Option.getD]
      cases w.entry path with
      | file content => exact hfile path content
      | _ => rfl
  | none =>
      dsimp only [Option.getD]
      cases w.entry Settings.defaultFile with
      | file content => exact hfile Settings.defaultFile content
      | _ => rfl

variable {read : List UInt8 → Settings.Loaded} {w : Surroundings} {a : Arguments}

theorem settingsBy_of_file {content : List UInt8}
    (h : w.entry (settingsPath a) = .file content) :
    settingsBy read w a = (Settings.ofLoaded w.defaults (settingsPath a) (read content)).map
      (·, some (settingsPath a)) := by
  simp only [settingsBy, h]

theorem settingsBy_of_not_file (h : ∀ content, w.entry (settingsPath a) ≠ .file content)
    {fault : SettingsFault} (herror : settingsBy read w a = .error fault) :
    fault = .unreadable (settingsPath a) := by
  simp only [settingsBy] at herror
  split at herror
  · next content hcontent => exact absurd hcontent (h content)
  · exact (Except.error.inj herror).symm
  · split at herror
    · exact (Except.error.inj herror).symm
    · contradiction

theorem settingsBy_escapes_iff (read : List UInt8 → Settings.Loaded) (w : Surroundings)
    (a : Arguments) :
    (∃ fault, settingsBy read w a = .error fault ∧ fault.message? = none) ↔
      ∃ content, w.entry (settingsPath a) = .file content ∧ (read content).Escapes := by
  by_cases hfile : ∃ content, w.entry (settingsPath a) = .file content
  · obtain ⟨content, hcontent⟩ := hfile
    have hmap (fault : SettingsFault) : settingsBy read w a = .error fault ↔
        Settings.ofLoaded w.defaults (settingsPath a) (read content) = .error fault := by
      rw [settingsBy_of_file hcontent]
      cases Settings.ofLoaded w.defaults (settingsPath a) (read content) <;> simp [Except.map]
    simp only [hmap, Settings.ofLoaded_escapes_iff, hcontent, Entry.file.injEq, exists_eq_left']
  · have hne (content : List UInt8) : w.entry (settingsPath a) ≠ .file content :=
      fun h => hfile ⟨content, h⟩
    refine ⟨fun ⟨fault, herror, hmessage⟩ => ?_, fun ⟨content, h, _⟩ => absurd h (hne content)⟩
    rw [settingsBy_of_not_file hne herror] at hmessage
    contradiction

/-- Among the faults of settings those without a message break the run off. -/
theorem failure_refuseSettings (fault : SettingsFault) {r : Report} (h : r.failure = none) :
    ((refuseSettings fault).run r).2.failure ≠ none ↔ fault.message? = none := by
  unfold refuseSettings
  cases fault.message? with
  | none => exact ⟨fun _ => rfl, fun _ => Option.some_ne_none _⟩
  | some message =>
      exact ⟨fun hne => absurd h hne, fun hnone => absurd hnone (Option.some_ne_none _)⟩

/-- Settings are read or refused with a message, except in three cases: bytes that are no text,
a reader that fails on well-formed text, and a key that is no text. Then the run breaks off. A
document that is no mapping is refused unless it counts as blank. -/
theorem settings_refused (read : List UInt8 → Settings.Loaded) (w : Surroundings)
    (a : Arguments) :
    settings w a = settingsBy .ofBytes w a ∧
    ((∃ fault, settingsBy read w a = .error fault ∧ fault.message? = none) ↔
      ∃ content, w.entry (settingsPath a) = .file content ∧ (read content).Escapes) ∧
    (∀ fault r, r.failure = none →
      (((refuseSettings fault).run r).2.failure ≠ none ↔ fault.message? = none)) ∧
    ∀ content data, w.entry (settingsPath a) = .file content → read content = .document data →
      (data.isBlank = true →
        settingsBy read w a = .ok (.ofDefaults w.defaults, some (settingsPath a))) ∧
      (data.isBlank = false → (∀ entries, data ≠ .mapping entries) →
        settingsBy read w a = .error (.notMapping (settingsPath a))) := by
  refine ⟨settings_eq_settingsBy w a, settingsBy_escapes_iff read w a,
    fun fault r => failure_refuseSettings fault, ?_⟩
  intro content data hcontent hread
  rw [settingsBy_of_file hcontent, hread, Settings.ofLoaded]
  refine ⟨fun hblank => ?_, fun hblank hmapping => ?_⟩
  · rw [Settings.ofData_of_isBlank hblank]
    rfl
  · rw [Settings.ofData_of_not_mapping hblank hmapping]
    rfl

/-- Bytes that are read as digits: nothing is refused for a zero, which counts as blank. -/
theorem settings_refused_zero :
    let zero : Surroundings := { entry := fun _ => .file [0x30] }
    let one : Surroundings := { entry := fun _ => .file [0x31] }
    let read (content : List UInt8) : Settings.Loaded :=
      .document (.int ((content.headD 0).toNat - 0x30))
    settingsBy read zero {} = .ok (.ofDefaults {}, some Settings.defaultFile) ∧
      settingsBy read one {} = .error (.notMapping Settings.defaultFile) := by
  intro zero one read
  obtain ⟨-, -, -, hzero⟩ := settings_refused read zero {}
  obtain ⟨-, -, -, hone⟩ := settings_refused read one {}
  refine ⟨(hzero _ _ rfl rfl).1 (by decide), (hone _ _ rfl rfl).2 (by decide) ?_⟩
  intro entries h
  cases h

/-- A byte that begins no character, a number as a key, and a truth value as the document. -/
theorem settings_without_message :
    settings { entry := fun _ => .file [0xFF] } {} = .error .undecodable ∧
      SettingsFault.undecodable.message? = none ∧
      settings { entry := fun _ => .file [0x31, 0x3A, 0x20, 0x32] } {} = .error .foreignKey ∧
      SettingsFault.foreignKey.message? = none ∧
      settings { entry := fun _ => .file [0x66, 0x61, 0x6C, 0x73, 0x65] } {} =
        .ok (.ofDefaults {}, some Settings.defaultFile) := by
  decide +kernel

end CommandLine.Run

end QueryOutline
