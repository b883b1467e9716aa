import Mathlib.Data.List.Nodup
import PrefixRanking.Proofs.Document.Nodes

/-!
# Recovering a configuration document from its text

The text of a document says everything that its record says (`toYaml_eq_iff`), and the name of the preset
stands in it as a string, also where it looks like a number or a name of nothing (`value_preset`).

The main statement is

* `written_documents_read_back` -- what is written is read as what it was, and what is absent is told
  apart from what is empty.
-/

namespace PrefixRanking.Export

open Yaml

/-- A text that is written plain is no other value, so the preset is a string in either style. -/
theorem value_preset (s : String) : (⟨s, presetStyle s, none⟩ : Scalar).value = .ok (.string s) := by
  rw [presetStyle]
  by_cases hplain : (!isAmbiguous s.toList && plainable s.toList) = true
  · have hclear : isAmbiguous s.toList = false := by
      rw [Bool.and_eq_true, Bool.not_eq_true'] at hplain
      exact hplain.1
    rw [isAmbiguous, Bool.or_eq_false_iff, String.ofList_toList, bne_eq_false_iff_eq] at hclear
    rw [if_pos hplain]
    exact congrArg Except.ok hclear.2
  · rw [if_neg hplain]
    rfl

/-- Two documents with the same text are the same. -/
theorem toYaml_eq_iff {e f : Export} (he : IsPrintable e.preset) (hf : IsPrintable f.preset) :
    e.toYaml = f.toYaml ↔ e = f := by
  constructor
  · intro h
    have hread : (.ok e : Result Export) = .ok f := by rw [← ofYaml_toYaml e he, h, ofYaml_toYaml f hf]
    exact Except.ok.inj hread
  · rintro rfl
    rfl

/-- **A document is recovered from its text**, whatever the preset is called: its record is read back, no
other record has the same text, and so there are different texts for overrides that are absent, for ones
without a list, and for ones with an empty list. -/
theorem written_documents_read_back (e : Export) (h : IsPrintable e.preset) :
    ofYaml e.toYaml = .ok e ∧
      (∀ f : Export, IsPrintable f.preset → f.toYaml = e.toYaml → f = e) ∧
      ∀ seed, ([none, some ⟨none, seed⟩, some ⟨some [], seed⟩].map fun o =>
        toYaml { e with overrides := o }).Nodup := by
  refine ⟨ofYaml_toYaml e h, fun f hf heq => (toYaml_eq_iff hf h).mp heq, fun seed => ?_⟩
  have hinj (o o' : Option Overrides)
      (heq : toYaml { e with overrides := o } = toYaml { e with overrides := o' }) : o = o' :=
    congrArg overrides ((toYaml_eq_iff (e := { e with overrides := o })
      (f := { e with overrides := o' }) h h).mp heq)
  exact List.Nodup.map (fun o o' => hinj o o') (by simp)

/-- The preset looks like nothing, and the list is there but empty. -/
theorem null_and_empty_read_back :
    let e : Export := ⟨some 4294967295, "null", some ⟨some [], some 18446744073709551615⟩⟩
    IsPrintable e.preset ∧ ofYaml e.toYaml = .ok e ∧
      (∀ f : Export, IsPrintable f.preset → f.toYaml = e.toYaml → f = e) ∧
      ∀ seed, ([none, some ⟨none, seed⟩, some ⟨some [], seed⟩].map fun o =>
        toYaml { e with overrides := o }).Nodup := by
  intro e
  have h : IsPrintable e.preset := isPrintable_iff.mpr (by decide)
  exact ⟨h, written_documents_read_back e h⟩

example : toYaml ⟨none, "- it's: #1", some ⟨some [], none⟩⟩ =
    "preset: '- it''s: #1'\noverrides:\n  prefix_preference: []\n" := by decide +kernel

end PrefixRanking.Export
