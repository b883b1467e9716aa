import PrefixRanking.Config.Json
import PrefixRanking.Proofs.Json.Members

/-!
# Configurations from JSON objects

A configuration is read back from the object that is written of it.  Each of its three fields is read by
itself: where its key is missing the field is the default one, whatever the preset of the object says, and
neither the order of the members nor a member of another key matters (`ofMembers_of_isVariant`).  Nothing
is validated.

The main statement is

* `fields_read_one_by_one` -- what is read of an object of a configuration that was changed in this way.
-/

namespace PrefixRanking.Config

open Json (Value)

/-! ## single fields -/

theorem presetOfJson_name (p : Preset) : presetOfJson (.string p.name) = .ok p := by
  rw [presetOfJson, Json.readVariant, Json.readVariantName, Preset.ofName?_name]

theorem preferencesOfJson_names (ps : List Preference) :
    preferencesOfJson (.array (ps.map fun p => .string p.name)) = .ok ps := by
  refine Json.readList_map (fun p => ?_) ps
  rw [Preference.ofJson, Json.readVariant, Json.readVariantName, Preference.ofName?_name]

/-- The fields are put together. -/
theorem ofMembers_eq_ok {ms : List (String × Value)} {preset : Option Preset}
    {preferences : Option (List Preference)} {seed : Option UInt64}
    (hpreset : Json.readMember "preset" presetOfJson ms = .ok preset)
    (hpreferences : Json.readMember "prefix_preference" preferencesOfJson ms = .ok preferences)
    (hseed : Json.readMember "random_seed" (Json.readUInt64 "u64") ms = .ok seed) :
    ofMembers ms = .ok (ofFields preset preferences seed) := by
  rw [ofMembers, hpreset, hpreferences, hseed]
  rfl

/-! ## objects with other members -/

/-- The members of the object that is written. -/
def members (c : Config) : List (String × Value) :=
  [("preset", .string c.preset.name),
    ("prefix_preference", .array (c.preferences.map fun p => .string p.name)),
    ("random_seed", .integer c.seed.toNat)]

/-- The configuration with the default one's fields in the place of those whose key is deleted. -/
def without (c : Config) (deleted : List String) : Config where
  preset := if "preset" ∈ deleted then default.preset else c.preset
  preferences := if "prefix_preference" ∈ deleted then default.preferences else c.preferences
  seed := if "random_seed" ∈ deleted then default.seed else c.seed

/-- The members of a configuration without those whose key is deleted, with others of other keys, in any
order. -/
def IsVariant (c : Config) (deleted : List String) (ms : List (String × Value)) : Prop :=
  ∃ extra : List (String × Value), (∀ m ∈ extra, m.1 ∉ c.members.map Prod.fst) ∧
    ms.Perm (c.members.filter (fun m => m.1 ∉ deleted) ++ extra)

theorem getD_ite {α : Type} {p : Prop} [Decidable p] (a b : α) :
    (if p then none else some a).getD b = if p then b else a := by
  split <;> rfl

/-- What is left of a configuration is read, whatever stands around it. -/
theorem ofMembers_of_isVariant {c : Config} {deleted : List String} {ms : List (String × Value)}
    (h : c.IsVariant deleted ms) : ofMembers ms = .ok (c.without deleted) := by
  obtain ⟨extra, hextra, hperm⟩ := h
  have hother (key : String) (hkey : key ∈ c.members.map Prod.fst) : ∀ m ∈ extra, m.1 ≠ key :=
    fun m hm heq => hextra m hm (heq ▸ hkey)
  have hpreset := Json.readMember_of_perm hperm (hother "preset" (by simp [members]))
    (by simp [members]) (presetOfJson_name c.preset)
  have hpreferences := Json.readMember_of_perm hperm (hother "prefix_preference" (by simp [members]))
    (by simp [members]) (preferencesOfJson_names c.preferences)
  have hseed := Json.readMember_of_perm hperm (hother "random_seed" (by simp [members]))
    (by simp [members]) (Json.readUInt64_toNat "u64" c.seed)
  rw [ofMembers_eq_ok hpreset hpreferences hseed, ofFields, getD_ite, getD_ite, getD_ite, without]

/-! ## the main statement -/

/-- **Each field is read by itself.**  The object of a configuration, valid or not, is read back; if some
of its members are deleted, others of other keys are added, and all of them are put in another order, then
the fields whose members are deleted are the default ones and the other ones are kept. -/
theorem fields_read_one_by_one (c : Config) :
    ofJson c.toJson = .ok c ∧
      (c.toJson = .object c.members ∧
        c.members.map Prod.fst = ["preset", "prefix_preference", "random_seed"]) ∧
      (∀ deleted ms, c.IsVariant deleted ms → ofJson (.object ms) = .ok (c.without deleted)) ∧
      default = ⟨.none, [.none], 0⟩ := by
  have hvariant (deleted : List String) (ms : List (String × Value)) (h : c.IsVariant deleted ms) :
      ofJson (.object ms) = .ok (c.without deleted) := ofMembers_of_isVariant h
  refine ⟨hvariant [] c.members ⟨[], List.forall_mem_nil _, ?_⟩, ⟨rfl, rfl⟩, hvariant, rfl⟩
  simp

/-- The list is not that of the preset, and neither the list nor the seed is missed. -/
example : ofJson (.object [("note", .null), ("preset", .string "domain_good_short")]) =
    .ok ⟨.domainGoodShort, [.none], 0⟩ := rfl

end PrefixRanking.Config
