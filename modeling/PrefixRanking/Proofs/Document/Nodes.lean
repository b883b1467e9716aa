import PrefixRanking.Proofs.Document.Tokens
import PrefixRanking.Proofs.Yaml.Reading

/-!
# What a configuration document is read as

The tokens of a document are composed into a tree with one entry for each part that is there, and the
reader puts each entry back into the record:

* `ofTokens_tokens` -- the tree of the tokens;
* `ofDocument_tree` -- the record that the tree is read as;
* `ofYaml_toYaml` -- so the text that is written is read back as the record.
-/

namespace PrefixRanking.Export

open Yaml Builder

/-! ## the tree of a document -/

/-- The entry of the version. -/
def versionEntries : Option UInt32 → List (Node × Node)
  | none => []
  | some v => [(.plain "version", .plain (toString v.toNat))]

/-- The entry of the list in the overrides. -/
def preferenceEntries : Option (List Preference) → List (Node × Node)
  | none => []
  | some ps => [(.plain "prefix_preference", .sequence none (ps.map fun p => .plain p.name))]

/-- The entry of the seed in the overrides. -/
def seedEntries : Option UInt64 → List (Node × Node)
  | none => []
  | some n => [(.plain "random_seed", .plain (toString n.toNat))]

/-- The entry of the overrides. -/
def overrideEntries : Option Overrides → List (Node × Node)
  | none => []
  | some o => [(.plain "overrides",
      .mapping none (preferenceEntries o.preferences ++ seedEntries o.seed))]

/-- The root node of the document. -/
def tree (e : Export) : Node :=
  .mapping none (versionEntries e.version ++
    (.plain "preset", .scalar ⟨e.preset, presetStyle e.preset, none⟩) :: overrideEntries e.overrides)

section

variable {es : List (Node × Node)} {fs : List Frame} {ts : List Token}

theorem feed_versionTokens (v : Option UInt32) :
    (inRoot (mappingFrame es .entry :: fs)).feed (versionTokens v ++ ts) =
      (inRoot (mappingFrame ((versionEntries v).reverse ++ es) .entry :: fs)).feed ts := by
  cases v with
  | none => rfl
  | some v =>
      rw [versionTokens, List.append_assoc, feed_key]
      exact feed_scalar _ _

theorem feed_seedTokens (seed : Option UInt64) :
    (inRoot (mappingFrame es .entry :: fs)).feed (seedTokens seed ++ ts) =
      (inRoot (mappingFrame ((seedEntries seed).reverse ++ es) .entry :: fs)).feed ts := by
  cases seed with
  | none => rfl
  | some n =>
      rw [seedTokens, List.append_assoc, feed_key]
      exact feed_scalar _ _

theorem feed_preferenceTokens (ps : Option (List Preference)) {t : Token}
    (ht : t = .key ∨ t = .blockEnd) :
    (inRoot (mappingFrame es .entry :: fs)).feed (preferenceTokens ps ++ t :: ts) =
      (inRoot (mappingFrame ((preferenceEntries ps).reverse ++ es) .entry :: fs)).feed (t :: ts) := by
  match ps with
  | none => rfl
  | some [] =>
      rw [preferenceTokens, List.append_assoc, feed_key]
      exact feed_emptySequence
  | some (p :: ps) =>
      rw [preferenceTokens, List.append_assoc, feed_key, feed_entries (by simp) ht, List.map_map]
      · rfl
      · simp

/-- Overrides as a block mapping, up to its end. -/
theorem feed_blockOverrides (ps : Option (List Preference)) (seed : Option UInt64) {k : Node} :
    (inRoot (mappingFrame es (.value k) :: fs)).feed
        (.blockMappingStart :: (preferenceTokens ps ++ (seedTokens seed ++ .blockEnd :: ts))) =
      (inRoot (mappingFrame ((k, .mapping none (preferenceEntries ps ++ seedEntries seed)) :: es)
        .entry :: fs)).feed ts := by
  obtain ⟨t, rest, ht, hrest⟩ : ∃ t rest, (t = Token.key ∨ t = .blockEnd) ∧
      seedTokens seed ++ .blockEnd :: ts = t :: rest := by
    cases seed with
    | none => exact ⟨_, _, .inr rfl, rfl⟩
    | some n => exact ⟨_, _, .inl rfl, rfl⟩
  rw [feed_mappingStart, hrest, feed_preferenceTokens ps ht, ← hrest, feed_seedTokens, feed_mappingEnd]
  simp

theorem feed_overrideTokens (o : Option Overrides) :
    (inRoot (mappingFrame es .entry :: fs)).feed (overrideTokens o ++ ts) =
      (inRoot (mappingFrame ((overrideEntries o).reverse ++ es) .entry :: fs)).feed ts := by
  match o with
  | none => rfl
  | some ⟨none, none⟩ =>
      rw [overrideTokens, List.append_assoc, feed_key]
      exact feed_emptyMapping
  | some ⟨none, some n⟩ =>
      rw [overrideTokens_append (by simp [Overrides.empty]), feed_key]
      exact feed_blockOverrides _ _
  | some ⟨some ps, seed⟩ =>
      rw [overrideTokens_append (by simp [Overrides.empty]), feed_key]
      exact feed_blockOverrides _ _

/-- **The tree of the tokens of a document.** -/
theorem ofTokens_tokens (e : Export) : Document.ofTokens e.tokens true = ⟨e.tree, [], true⟩ := by
  have hfeed : (start.feed e.tokens).finish = ⟨e.tree, [], true⟩ := by
    rw [tokens, feed_start, feed_versionTokens, feed_key, feed_scalar, feed_overrideTokens,
      finish_feed_end, tree]
    simp
  rw [Document.ofTokens, hfeed]
  rfl

end

/-! ## reading the tree -/

section

variable {d : Document} {path : Schema.Path}

theorem readItems_names (ps : List Preference) (i : Nat) :
    readItems path (Preference.ofNode d path) i (ps.map fun p => .plain p.name) = .ok ps := by
  induction ps generalizing i with
  | nil => rfl
  | cons p ps ih =>
      have hp : Preference.ofNode d path (.index i :: path) (.plain p.name) = .ok p :=
        readVariant_plain (Preference.ofName?_name p) _
      rw [List.map_cons, readItems, ih, hp]
      rfl

variable {seen : List String} {rest : List (Node × Node)}

/-- The list is put into the overrides. -/
theorem readEntries_preferences (ps : List Preference) (o : Overrides)
    (h : "prefix_preference" ∉ seen) :
    readEntries d path (Overrides.fields d path) seen o
        ((.plain "prefix_preference", .sequence none (ps.map fun p => .plain p.name)) :: rest) =
      readEntries d path (Overrides.fields d path) ("prefix_preference" :: seen)
        { o with preferences := some ps } rest := by
  rw [readEntries_plain (by simp [Overrides.fields]) h]
  show (do let ps ← (do let ps ← readItems _ (Preference.ofNode d _) 0 _; _); _ : Result _).bind _ = _
  rw [readItems_names]
  rfl

/-- The seed is put into the overrides. -/
theorem readEntries_seed (n : UInt64) (o : Overrides) (h : "random_seed" ∉ seen) :
    readEntries d path (Overrides.fields d path) seen o
        ((.plain "random_seed", .plain (toString n.toNat)) :: rest) =
      readEntries d path (Overrides.fields d path) ("random_seed" :: seen)
        { o with seed := some n } rest := by
  rw [readEntries_plain (by simp [Overrides.fields]) h]
  show (do let seed ← readOptional d path (readUInt64 d _ "u64") _; _ : Result _).bind _ = _
  rw [readOptional_toString, readUInt64_toString]
  rfl

/-- Overrides are read from their tree. -/
theorem ofNode_overrides (o : Overrides) :
    Overrides.ofNode d path
        (.mapping none (preferenceEntries o.preferences ++ seedEntries o.seed)) = .ok o := by
  show readEntries d path (Overrides.fields d path) [] .empty _ = _
  match o with
  | ⟨none, none⟩ => rfl
  | ⟨none, some n⟩ => exact readEntries_seed n _ (by decide)
  | ⟨some ps, none⟩ => exact readEntries_preferences ps _ (by decide)
  | ⟨some ps, some n⟩ =>
      exact (readEntries_preferences ps _ (by decide)).trans (readEntries_seed n _ (by decide))

/-- The version is put into the document. -/
theorem readEntries_version (v : UInt32) (e : Export) (h : "version" ∉ seen) :
    readEntries d [] (fields d) seen e ((.plain "version", .plain (toString v.toNat)) :: rest) =
      readEntries d [] (fields d) ("version" :: seen) { e with version := some v } rest := by
  rw [readEntries_plain (by simp [fields]) h]
  show (do let v ← readOptional d [] (readUInt32 d _ "u32") _; _ : Result _).bind _ = _
  rw [readOptional_toString, readUInt32_toString]
  rfl

/-- The preset is put into the document, however it is written. -/
theorem readEntries_preset (s : String) (style : Style) (e : Export) (h : "preset" ∉ seen) :
    readEntries d [] (fields d) seen e ((.plain "preset", .scalar ⟨s, style, none⟩) :: rest) =
      readEntries d [] (fields d) ("preset" :: seen) { e with preset := s } rest := by
  rw [readEntries_plain (by simp [fields]) h]
  rfl

/-- Overrides are put into the document. -/
theorem readEntries_overrides (o : Overrides) (e : Export) (h : "overrides" ∉ seen) :
    readEntries d [] (fields d) seen e (overrideEntries (some o)) =
      .ok { e with overrides := some o } := by
  rw [overrideEntries, readEntries_plain (by simp [fields]) h]
  show (do let o ← (do let o ← Overrides.ofNode d _ _; _); _ : Result _).bind _ = _
  rw [ofNode_overrides]
  rfl

/-- **A document is read from its tree.** -/
theorem ofDocument_tree (e : Export) : ofDocument ⟨e.tree, [], true⟩ = .ok e := by
  show readEntries _ [] (fields _) [] .empty (_ ++ _ :: _) = _
  match e with
  | ⟨none, s, none⟩ => exact readEntries_preset s _ _ (by decide)
  | ⟨none, s, some o⟩ =>
      exact (readEntries_preset s _ _ (by decide)).trans (readEntries_overrides o _ (by decide))
  | ⟨some v, s, none⟩ =>
      exact (readEntries_version v _ (by decide)).trans (readEntries_preset s _ _ (by decide))
  | ⟨some v, s, some o⟩ =>
      exact (readEntries_version v _ (by decide)).trans
        ((readEntries_preset s _ _ (by decide)).trans (readEntries_overrides o _ (by decide)))

end

/-- The text of a document is read as its tree. -/
theorem ofText_toYaml (e : Export) (h : IsPrintable e.preset) :
    Document.ofText e.toYaml = ⟨e.tree, [], true⟩ := by
  rw [Document.ofText, toYaml, String.toList_ofList, ofText_write e h]
  exact ofTokens_tokens e

/-- **A document that is written is read back.** -/
theorem ofYaml_toYaml (e : Export) (h : IsPrintable e.preset) : ofYaml e.toYaml = .ok e := by
  rw [ofYaml, readTextAs, ofText_toYaml e h]
  show (do let e ← ofDocument ⟨e.tree, [], true⟩; _) = _
  rw [ofDocument_tree]
  rfl

end PrefixRanking.Export
