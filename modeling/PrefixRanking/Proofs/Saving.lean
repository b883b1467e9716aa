import PrefixRanking.Proofs.Document.Nodes
import PrefixRanking.Proofs.Loading
import PrefixRanking.Proofs.Validation

/-!
# Saving a configuration and loading it

A saved configuration is read back as the document that was written, so nothing but validation decides
what loading it gives (`ofYaml_toYaml_eq_ensureValid`).  The main statement spells this out:

* `saving_preserves` -- a valid configuration is loaded again, any other one fails as in validation.
-/

namespace PrefixRanking

/-! ## the document -/

/-- The name of a preset is found again. -/
theorem Preset.parse?_name (p : Preset) : parse? p.name = some p := by
  have hlower : p.name.toList.map Char.toLower = p.name.toList := by cases p <;> decide
  exact parse?_eq_some_iff.mpr
    ⟨[], p.name.toList, [], by simp, List.forall_mem_nil _, List.forall_mem_nil _, hlower⟩

theorem Preset.isPrintable_name (p : Preset) : Export.IsPrintable p.name := by
  rw [Export.isPrintable_iff]
  cases p <;> decide

namespace Config

/-- The document of a configuration describes it. -/
theorem ofExport_toExport (c : Config) : ofExport c.toExport = .ok c := by
  rw [ofExport, toExport]
  dsimp only
  rw [if_neg (by decide), Preset.parse?_name]
  rfl

/-- **Loading what was saved is validation.** -/
theorem ofYaml_toYaml_eq_ensureValid (c : Config) : ofYaml c.toYaml = c.ensureValid := by
  have he : Export.ofYaml c.toYaml = .ok c.toExport :=
    Export.ofYaml_toYaml c.toExport c.preset.isPrintable_name
  rw [ofYaml_of_export he, ofExport_toExport]
  rfl

/-! ## the main statement -/

/-- **Saving keeps everything**: the preset, the list and the seed of a valid configuration, and of any
other one the error that validation gives.  So what was loaded once can be saved and loaded again. -/
theorem saving_preserves (c : Config) :
    (c.validate = .ok () → ofYaml c.toYaml = .ok c) ∧
    (∀ e, c.validate = .error e → ofYaml c.toYaml = .error e ∧ e.IsListProblem) ∧
    ∀ t, ofYaml t = .ok c → ofYaml c.toYaml = .ok c := by
  rw [ofYaml_toYaml_eq_ensureValid]
  have hvalid : c.validate = .ok () → c.ensureValid = .ok c :=
    fun h => ensureValid_eq_ok_iff.mpr ⟨rfl, h⟩
  refine ⟨hvalid, ?_, ?_⟩
  · intro e h
    exact ⟨ensureValid_eq_error_iff.mpr h, isListProblem_of_validate h⟩
  · intro t h
    exact hvalid (validate_of_ofYaml h)

end Config

end PrefixRanking
