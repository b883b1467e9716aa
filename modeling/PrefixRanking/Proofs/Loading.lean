import PrefixRanking.Config.Load
import PrefixRanking.Proofs.Text

/-!
# What loading a configuration gives

The preset of a document is found exactly by its name, with blank characters around it and in any case of
ASCII letters (`Preset.parse?_eq_some_iff`).  The main statement lists the errors of loading in the order
in which they are looked for:

* `loading_precedence` -- what is loaded is fixed by the document that the text is read as.
-/

namespace PrefixRanking

/-! ## the names of presets -/

namespace Preset

/-- The text is the name of the preset, but for blank characters around it and the case of ASCII
letters. -/
def IsNamed (p : Preset) (s : String) : Prop :=
  ∃ before name after, s.toList = before ++ name ++ after ∧
    (∀ c ∈ before, Text.isBlank c = true) ∧ (∀ c ∈ after, Text.isBlank c = true) ∧
      name.map Char.toLower = p.name.toList

theorem ofName?_eq_some_iff {s : String} {p : Preset} : ofName? s = some p ↔ s = p.name := by
  constructor
  · intro h
    have hp := List.find?_some h
    rw [beq_iff_eq] at hp
    exact hp.symm
  · intro h
    rw [h, ofName?_name]

/-- The names are in ASCII, without `k` and without blank characters. -/
theorem name_chars {p : Preset} {c : Char} (hc : c ∈ p.name.toList) :
    (c.toNat < 128 ∧ c ≠ 'k') ∧ Text.isBlank c = false := by
  have hall : p.name.toList.all (fun c => (c.toNat < 128 && c != 'k') && !Text.isBlank c) = true := by
    cases p <;> decide
  simpa using List.all_eq_true.mp hall c hc

/-- **A preset is found by its name**, with blank characters around it and in any case. -/
theorem parse?_eq_some_iff {s : String} {p : Preset} : parse? s = some p ↔ p.IsNamed s := by
  rw [parse?, ofName?_eq_some_iff, Text.lowercase_eq_iff fun c hc => (name_chars hc).1,
    Text.lowerAscii, Text.trim, String.toList_ofList, ← String.toList_inj, String.toList_ofList]
  constructor
  · intro h
    obtain ⟨before, after, hs, hb, ha⟩ := Text.exists_eq_append_trimChars s.toList
    exact ⟨before, _, after, hs, hb, ha, h⟩
  · rintro ⟨before, name, after, hs, hb, ha, hname⟩
    have hn : ∀ c ∈ name, Text.isBlank c = false := by
      intro c hc
      by_contra hblank
      rw [Bool.not_eq_false] at hblank
      have hmem : c ∈ p.name.toList := by
        rw [← hname, ← Text.toLower_of_isBlank hblank]
        exact List.mem_map_of_mem hc
      rw [(name_chars hmem).2] at hblank
      contradiction
    rw [hs, Text.trimChars_append hb (Text.trimmed_of_forall hn) ha, hname]

end Preset

/-! ## the main statement -/

namespace Config

/-- The configuration that a document describes, on top of a preset. -/
structure Describes (e : Export) (p : Preset) (c : Config) : Prop where
  preset : c.preset = p
  /-- The list is that of the preset unless there is another one. -/
  preferences : c.preferences = (e.overrides.bind Overrides.preferences).getD p.preferences
  /-- The seed is zero unless there is another one. -/
  seed : c.seed = (e.overrides.bind Overrides.seed).getD 0

theorem describes_override (e : Export) (p : Preset) :
    Describes e p ((ofPreset p).override (e.overrides.getD .empty)) := by
  cases h : e.overrides with
  | none => exact ⟨rfl, by rw [h]; rfl, by rw [h]; rfl⟩
  | some o => exact ⟨rfl, by rw [h]; rfl, by rw [h]; rfl⟩

theorem ensureValid_eq_ok_iff {c c' : Config} :
    c.ensureValid = .ok c' ↔ c' = c ∧ c.validate = .ok () := by
  rw [ensureValid]
  cases c.validate <;> simp [bind, Except.bind, pure, Except.pure, eq_comm]

theorem ensureValid_eq_error_iff {c : Config} {e : ConfigError} :
    c.ensureValid = .error e ↔ c.validate = .error e := by
  rw [ensureValid]
  cases c.validate <;> simp [bind, Except.bind, pure, Except.pure]

theorem ofYaml_of_export {s : String} {e : Export} (h : Export.ofYaml s = .ok e) :
    ofYaml s = ofExport e >>= ensureValid := by
  rw [ofYaml, h]

/-- What is loaded is valid. -/
theorem validate_of_ofYaml {s : String} {c : Config} (h : ofYaml s = .ok c) : c.validate = .ok () := by
  cases he : Export.ofYaml s with
  | error err =>
      rw [ofYaml, he] at h
      contradiction
  | ok e =>
      rw [ofYaml_of_export he] at h
      cases hc : ofExport e with
      | error err =>
          rw [hc] at h
          contradiction
      | ok c' =>
          rw [hc] at h
          obtain ⟨rfl, hvalid⟩ := ensureValid_eq_ok_iff.mp h
          exact hvalid

/-- **The order of errors**: a text that is not read as a document, then no version, another version than
1, and a preset that is none; else the list and the seed are put in place, each where there is one, and
validation decides.  So what is loaded is valid. -/
theorem loading_precedence (s : String) :
    (∀ err, Export.ofYaml s = .error err → ofYaml s = .error (.yaml err)) ∧
    (∀ e, Export.ofYaml s = .ok e →
      (e.version = none → ofYaml s = .error .missingVersion) ∧
      (∀ v, e.version = some v → v ≠ 1 → ofYaml s = .error (.unsupportedVersion v [1])) ∧
      (e.version = some 1 → (∀ p : Preset, ¬ p.IsNamed e.preset) →
        ofYaml s = .error (.unknownPreset e.preset)) ∧
      (e.version = some 1 → ∀ p : Preset, p.IsNamed e.preset → ∃ c, Describes e p c ∧
        (c.validate = .ok () → ofYaml s = .ok c) ∧
          ∀ err, c.validate = .error err → ofYaml s = .error err)) ∧
    ∀ c, ofYaml s = .ok c → c.validate = .ok () := by
  refine ⟨?_, ?_, fun c => validate_of_ofYaml⟩
  · intro err h
    rw [ofYaml, h]
  · intro e he
    rw [ofYaml_of_export he, ofExport]
    refine ⟨?_, ?_, ?_, ?_⟩
    · intro hv
      rw [hv]
      rfl
    · intro v hv hne
      rw [hv]
      dsimp only
      rw [if_pos (by simpa [supportedVersions] using hne)]
      rfl
    · intro hv hp
      have hnone : Preset.parse? e.preset = none := by
        rw [Option.eq_none_iff_forall_ne_some]
        exact fun p h => hp p (Preset.parse?_eq_some_iff.mp h)
      rw [hv]
      dsimp only
      rw [if_neg (by decide), hnone]
      rfl
    · intro hv p hp
      rw [hv]
      dsimp only
      rw [if_neg (by decide), Preset.parse?_eq_some_iff.mpr hp]
      exact ⟨_, describes_override e p, fun h => ensureValid_eq_ok_iff.mpr ⟨rfl, h⟩,
        fun err h => ensureValid_eq_error_iff.mpr h⟩

end Config

end PrefixRanking
