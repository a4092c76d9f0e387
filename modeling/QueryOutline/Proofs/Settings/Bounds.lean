import QueryOutline.Proofs.Settings.Refusals
import QueryOutline.Settings.Environment

/-!
Bounds of the settings in use. What a file gives is checked against the bounds of its
attribute, and what it does not give is taken over from the defaults as it is. One of these
the environment may set to any integer, so the settings of a run are within bounds just in
case that integer is or a file replaces it.
-/

namespace QueryOutline

namespace Settings

/-- Rows are never drawn to the left, a level takes no more than sixteen columns, and some of
a document is read. -/
structure WithinBounds (s : Settings) : Prop where
  least : 0 ≤ s.indentWidth
  greatest : s.indentWidth ≤ 16
  document : 0 < s.maxDocumentBytes

def Loaded.GivesIndentation : Loaded → Prop
  | document (.mapping entries) => Value.lookup entries "indent_width" ≠ none
  | _ => False

/-- The indentation is the default one, unchecked, or a given one that is within bounds. -/
structure Settles (d : Defaults) (given : Prop) (s : Settings) : Prop where
  taken : ¬ given → s.indentWidth = d.indentWidth
  checked : given → 0 ≤ s.indentWidth ∧ s.indentWidth ≤ 16
  document : 0 < s.maxDocumentBytes

variable {d : Defaults} {given : Prop} {s : Settings} {path : String}
  {entries : List (Value × Value)}

theorem settles_ofDefaults (h : ¬ given) : Settles d given (ofDefaults d) where
  taken _ := rfl
  checked hgiven := absurd hgiven h
  document := (by decide : 0 < defaultMaxDocumentBytes)

theorem Settles.withinBounds_iff (h : Settles d given s) :
    s.WithinBounds ↔ given ∨ (0 ≤ d.indentWidth ∧ d.indentWidth ≤ 16) := by
  by_cases hgiven : given
  · obtain ⟨hleast, hgreatest⟩ := h.checked hgiven
    exact ⟨fun _ => .inl hgiven, fun _ => ⟨hleast, hgreatest, h.document⟩⟩
  · rw [← h.taken hgiven, or_iff_right hgiven]
    exact ⟨fun hs => ⟨hs.least, hs.greatest⟩, fun hd => ⟨hd.1, hd.2, h.document⟩⟩

/-! Settings read from a mapping. -/

theorem settles_ofEntries (h : ofEntries d entries = .ok s) :
    Settles d (Value.lookup entries "indent_width" ≠ none) s := by
  simp only [ofEntries, Checked.seq_eq_ok_iff, Checked.map_eq_ok_iff] at h
  obtain ⟨_, _, ⟨_, styles, ⟨_, style, ⟨width, hwidth, rfl⟩, -, rfl⟩, -, rfl⟩,
    ⟨limit, hlimit, rfl⟩, rfl⟩ := h
  simp only [Value.optional_eq_ok_iff, Checked.require_eq_ok_iff, decide_eq_true_eq]
    at hwidth hlimit
  have hdocument : 0 < limit.toNat := by
    rcases hlimit with ⟨-, rfl⟩ | ⟨_, -, -, hpos⟩
    · decide
    · omega
  rcases hwidth with ⟨hnone, rfl⟩ | ⟨v, hsome, ⟨-, hleast⟩, hgreatest⟩
  · exact ⟨fun _ => rfl, fun hgiven => absurd hnone hgiven, hdocument⟩
  · have hgiven : Value.lookup entries "indent_width" ≠ none := by simp [hsome]
    exact ⟨fun hnot => absurd hgiven hnot, fun _ => ⟨hleast, hgreatest⟩, hdocument⟩

/-- Extending the styles changes no other entry and no key. -/
theorem lookup_extendStyles_eq_none_iff (entries : List (Value × Value)) (key : String) :
    Value.lookup (extendStyles entries) key = none ↔ Value.lookup entries key = none := by
  have hkey (e : Value × Value) : ((extendStyles [e]).map (·.1)) = [e.1] := by
    obtain ⟨key, v⟩ := e
    cases v with
    | mapping styles =>
        simp only [extendStyles, List.map_cons, List.map_nil]
        split <;> rfl
    | _ => rfl
  have hkeys : (extendStyles entries).map (·.1) = entries.map (·.1) := by
    induction entries with
    | nil => rfl
    | cons e entries ih =>
        have hsplit : extendStyles (e :: entries) = extendStyles [e] ++ extendStyles entries := rfl
        rw [hsplit, List.map_append, hkey, ih]
        rfl
  have hnone (entries : List (Value × Value)) : Value.lookup entries key = none ↔
      ∀ k ∈ entries.map (·.1), k.isText key = false := by
    simp [Value.lookup]
  rw [hnone, hnone, hkeys]

theorem settles_ofLoaded {r : Loaded} (h : ofLoaded d path r = .ok s) :
    Settles d r.GivesIndentation s := by
  cases r with
  | undecodable => contradiction
  | faulty fault => cases fault <;> contradiction
  | document data =>
      rw [ofLoaded] at h
      cases hblank : data.isBlank with
      | true =>
          rw [ofData_of_isBlank hblank] at h
          obtain rfl := Except.ok.inj h
          refine settles_ofDefaults ?_
          cases data with
          | mapping entries =>
              obtain rfl := List.isEmpty_iff.mp hblank
              exact not_not.mpr rfl
          | _ => exact id
      | false =>
          by_cases hmapping : ∃ entries, data = .mapping entries
          · obtain ⟨entries, rfl⟩ := hmapping
            rw [ofData_mapping] at h
            split at h
            · contradiction
            · split at h
              · next found hfound =>
                  obtain rfl := Except.ok.inj h
                  have hs := settles_ofEntries hfound
                  rwa [Ne, lookup_extendStyles_eq_none_iff] at hs
              · contradiction
          · rw [ofData_of_not_mapping hblank fun entries heq => hmapping ⟨entries, heq⟩] at h
            contradiction

end Settings

namespace CommandLine.Run

open Settings

/-- The settings file of a run, as it is read, gives an indentation. -/
def GivesIndentation (read : List UInt8 → Loaded) (w : Surroundings) (a : Arguments) : Prop :=
  ∃ content, w.entry (settingsPath a) = .file content ∧ (read content).GivesIndentation

variable {read : List UInt8 → Loaded} {w : Surroundings} {a : Arguments} {s : Settings}
  {origin : Option String}

theorem settles_settingsBy (h : settingsBy read w a = .ok (s, origin)) :
    Settles w.defaults (GivesIndentation read w a) s := by
  by_cases hfile : ∃ content, w.entry (settingsPath a) = .file content
  · obtain ⟨content, hcontent⟩ := hfile
    rw [settingsBy_of_file hcontent] at h
    cases hread : ofLoaded w.defaults (settingsPath a) (read content) with
    | error fault => simp [hread, Except.map] at h
    | ok found =>
        obtain rfl : found = s := by
          rw [hread] at h
          exact congrArg Prod.fst (Except.ok.inj h)
        have hgiven : GivesIndentation read w a ↔ (read content).GivesIndentation := by
          simp [GivesIndentation, hcontent]
        rw [hgiven]
        exact settles_ofLoaded hread
  · have hnot : ¬ GivesIndentation read w a :=
      fun ⟨content, hcontent, _⟩ => hfile ⟨content, hcontent⟩
    simp only [settingsBy] at h
    split at h
    · next content hcontent => exact absurd ⟨content, hcontent⟩ hfile
    · contradiction
    · split at h
      · contradiction
      · obtain rfl : ofDefaults w.defaults = s := congrArg Prod.fst (Except.ok.inj h)
        exact settles_ofDefaults hnot

/-- An environment that sets no indentation leaves one within bounds. -/
theorem indentWidth_ofEnvironment_iff {environment : List (String × String)} {d : Defaults}
    (h : Defaults.ofEnvironment environment = .ok d) :
    (0 ≤ d.indentWidth ∧ d.indentWidth ≤ 16) ↔
      ∀ text n, environment.lookup "GQLENS_INDENT_WIDTH" = some text →
        Text.readInteger text = .ok n → 0 ≤ n ∧ n ≤ 16 := by
  unfold Defaults.ofEnvironment at h
  split at h
  · next hnone =>
      obtain rfl := Except.ok.inj h
      simp [hnone]
  · next text hsome =>
      split at h
      · next n hn =>
          obtain rfl := Except.ok.inj h
          rw [hsome]
          refine ⟨fun hbounds _ m htext hm => ?_, fun hall => hall text n rfl hn⟩
          obtain rfl := Option.some.inj htext
          obtain rfl : n = m := Except.ok.inj (hn.symm.trans hm)
          exact hbounds
      · contradiction

/-- Whatever the environment sets, the files hold and their bytes are read as, the settings of a
run are within bounds if and only if the settings file gives an indentation or the one of the
environment, if it has one, is within bounds. The limit of documents is positive in any case, and
no margin of settings within bounds is negative or wider than sixteen columns a level. -/
theorem settings_withinBounds_iff (environment : List (String × String))
    (read : List UInt8 → Loaded) (w : Surroundings) (a : Arguments) (s : Settings)
    (origin : Option String)
    (henvironment : Defaults.ofEnvironment environment = .ok w.defaults)
    (hs : settingsBy read w a = .ok (s, origin)) :
    settings w a = settingsBy .ofBytes w a ∧
    (s.WithinBounds ↔ GivesIndentation read w a ∨
      ∀ text n, environment.lookup "GQLENS_INDENT_WIDTH" = some text →
        Text.readInteger text = .ok n → 0 ≤ n ∧ n ≤ 16) ∧
    0 < s.maxDocumentBytes ∧
    (s.WithinBounds → ∀ depth : Nat,
      0 ≤ Layout.margin s depth ∧ Layout.margin s depth ≤ depth * 16) := by
  have hsettles := settles_settingsBy hs
  refine ⟨settings_eq_settingsBy w a, ?_, hsettles.document, fun hbounds depth => ⟨?_, ?_⟩⟩
  · rw [hsettles.withinBounds_iff, indentWidth_ofEnvironment_iff henvironment]
  · exact Int.mul_nonneg (Int.natCast_nonneg depth) hbounds.least
  · exact Int.mul_le_mul_of_nonneg_left hbounds.greatest (Int.natCast_nonneg depth)

/-- The environment sets 99, and the file sets four. -/
theorem givesIndentation_of_narrow :
    let w : Surroundings := {
      defaults := { indentWidth := 99 }
      entry := fun _ => .file (Text.encodeUtf8 "indent_width: 4".toList) }
    let s := { ofDefaults w.defaults with indentWidth := 4 }
    Defaults.ofEnvironment [("GQLENS_INDENT_WIDTH", "99")] = .ok w.defaults ∧
      settings w {} = .ok (s, some defaultFile) ∧ s.WithinBounds ∧
      GivesIndentation .ofBytes w {} := by
  intro w s
  have henvironment : Defaults.ofEnvironment [("GQLENS_INDENT_WIDTH", "99")] = .ok w.defaults := by
    decide +kernel
  have hs : settings w {} = .ok (s, some defaultFile) := by decide +kernel
  have hbounds : s.WithinBounds := ⟨by decide, by decide, by decide⟩
  have hwide : Text.readInteger "99" = .ok 99 := by decide +kernel
  refine ⟨henvironment, hs, hbounds, ?_⟩
  have hread := hs
  rw [settings_eq_settingsBy] at hread
  have hsource :=
    (settings_withinBounds_iff _ .ofBytes w {} s _ henvironment hread).2.1.mp hbounds
  refine hsource.resolve_right fun hall => ?_
  have hnarrow := hall "99" 99 rfl hwide
  omega

/-- Without a file the 99 columns of the environment are used. -/
theorem settings_unbounded :
    let w : Surroundings := { defaults := { indentWidth := 99 }, entry := fun _ => .missing }
    Defaults.ofEnvironment [("GQLENS_INDENT_WIDTH", "99")] = .ok w.defaults ∧
      settings w {} = .ok (ofDefaults w.defaults, none) ∧
      ¬ (ofDefaults w.defaults).WithinBounds ∧ Layout.margin (ofDefaults w.defaults) 1 = 99 := by
  refine ⟨by decide +kernel, by decide +kernel, fun h => ?_, by decide⟩
  have hgreatest : (99 : Int) ≤ 16 := h.greatest
  omega

end CommandLine.Run

end QueryOutline
