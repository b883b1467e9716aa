import PrefixRanking.Config.Export
import PrefixRanking.Proofs.Yaml.Rearranging

/-!
# Which documents are configuration documents

`Overrides.IsRead` and `Export.IsRead` relate the entries of a mapping to the record that they hold, field
by field and without an order; `Fits` says of the entries alone that they hold one.  The fields of both
records are lawful (`fields_lawful`), so the readers do what these relations say (`ofNode_eq_ok_iff`,
`ofDocument_eq_ok_iff`), and a rearrangement of the entries changes nothing (`ofDocument_congr`, and
`ofDocument_of_shuffled` for other orders of the entries of one document).

* `schema_acceptance` -- which documents are read, and as what.
* `tag_alone_read_minus_zero_and_tagged_null_refused` -- three scalars at the edge: overrides are read from
  more than mappings, and neither every integer in range nor all that stands for nothing is read as such.
-/

namespace PrefixRanking

open Yaml

/-! ## the overrides -/

namespace Overrides

/-- What one field holds. -/
inductive Part where
  | preferences (ps : Option (List Preference))
  | seed (n : Option UInt64)

/-- The part of the record that a field holds. -/
def part (name : String) (o : Overrides) : Part :=
  match name with
  | "prefix_preference" => .preferences o.preferences
  | _ => .seed o.seed

/-- The node stands for what the field holds: a list of names, or an integer, or nothing. -/
def Part.Holds (d : Document) (node : Node) : Part → Prop
  | .preferences ps => d.IsOptional (d.IsList (d.IsNamed Preference.name)) node ps
  | .seed n => d.IsOptional d.IsUInt64 node n

/-- The entries hold the record. -/
structure IsRead (d : Document) (es : List (Node × Node)) (o : Overrides) : Prop where
  keys : d.KeysAmong ["prefix_preference", "random_seed"] es
  preferences : d.IsField es "prefix_preference"
    (d.IsOptional (d.IsList (d.IsNamed Preference.name))) none o.preferences
  seed : d.IsField es "random_seed" (d.IsOptional d.IsUInt64) none o.seed

/-- The entries hold a record. -/
structure Fits (d : Document) (es : List (Node × Node)) : Prop where
  keys : d.KeysAmong ["prefix_preference", "random_seed"] es
  preferences : ∀ v, d.HasEntry es "prefix_preference" v →
    d.IsNull v ∨ d.IsPresent v ∧ ∃ ps, d.IsList (d.IsNamed Preference.name) v ps
  seed : ∀ v, d.HasEntry es "random_seed" v →
    d.IsNull v ∨ d.IsPresent v ∧ ∃ n < UInt64.size, d.natural? v = some n

variable {d : Document} {outer path : Schema.Path} {es : List (Node × Node)} {o : Overrides}

theorem listOfNode_eq_ok_iff {node : Node} {ps : List Preference} :
    Preference.listOfNode d path node = .ok ps ↔ d.IsList (d.IsNamed Preference.name) node ps := by
  have hname (s : String) (p : Preference) : Preference.ofName? s = some p ↔ s = p.name :=
    ⟨fun h => (Preference.name_of_ofName? h).symm, fun h => h ▸ Preference.ofName?_name p⟩
  have hitem (place : Schema.Path) (item : Node) (p : Preference) :
      Preference.ofNode d path place item = .ok p ↔ d.IsNamed Preference.name item p :=
    readVariant_eq_ok_iff hname
  exact readList_eq_ok_iff hitem

variable {node : Node} {a b : Overrides}

theorem readField_preferences :
    readField d outer "prefix_preference" path node a = .ok b ↔
      (Part.preferences b.preferences).Holds d node ∧ b.seed = a.seed := by
  have hput (ps : Option (List Preference)) :
      { a with preferences := ps } = b ↔ ps = b.preferences ∧ b.seed = a.seed := by
    cases b
    simp [eq_comm]
  refine (put_eq_ok_iff hput).trans (and_congr_left' ?_)
  exact readOptional_eq_ok_iff fun _ => listOfNode_eq_ok_iff

theorem readField_seed :
    readField d outer "random_seed" path node a = .ok b ↔
      (Part.seed b.seed).Holds d node ∧ b.preferences = a.preferences := by
  have hput (n : Option UInt64) :
      { a with seed := n } = b ↔ n = b.seed ∧ b.preferences = a.preferences := by
    cases b
    simp [eq_comm, and_comm]
  refine (put_eq_ok_iff hput).trans (and_congr_left' ?_)
  exact readOptional_eq_ok_iff fun _ => readUInt64_eq_ok_iff

theorem fields_lawful (d : Document) (outer : Schema.Path) :
    (fields d outer).Lawful part (Part.Holds d) where
  closed := rfl
  ext := by
    rintro ⟨ps, n⟩ ⟨ps', n'⟩ h
    simpa [fields, part] using h
  mix := by
    intro name hname a b
    simp only [fields, List.mem_cons, List.not_mem_nil, or_false] at hname
    obtain rfl | rfl := hname
    · exact ⟨⟨b.preferences, a.seed⟩, rfl, by simp [fields, part]⟩
    · exact ⟨⟨a.preferences, b.seed⟩, rfl, by simp [fields, part]⟩
  read_eq_ok_iff := by
    intro name hname path node a b
    simp only [fields, List.mem_cons, List.not_mem_nil, or_false] at hname
    obtain rfl | rfl := hname
    · refine readField_preferences.trans ?_
      simp [fields, part]
    · refine readField_seed.trans ?_
      simp [fields, part]

/-- **The overrides at a node** are read exactly where the entries of a mapping hold them. -/
theorem ofNode_eq_ok_iff : ofNode d path node = .ok o ↔ d.IsRecord (IsRead d) node o := by
  refine (readRecord_eq_ok_iff (fields_lawful d path)).trans ?_
  refine exists_congr fun es => and_congr_right fun _ => ?_
  have hpreferences : d.IsField es "prefix_preference" (Part.Holds d) (.preferences none)
      (.preferences o.preferences) ↔ _ := Document.isField_map fun _ _ => Part.preferences.inj
  have hseed : d.IsField es "random_seed" (Part.Holds d) (.seed none) (.seed o.seed) ↔ _ :=
    Document.isField_map fun _ _ => Part.seed.inj
  constructor
  · rintro ⟨hkeys, hfields⟩
    have hboth := List.forall_mem_cons.mp hfields
    exact ⟨hkeys, hpreferences.mp hboth.1, hseed.mp (hboth.2 _ List.mem_cons_self)⟩
  · rintro ⟨hkeys, hp, hs⟩
    refine ⟨hkeys, List.forall_mem_cons.mpr ⟨hpreferences.mpr hp, ?_⟩⟩
    exact List.forall_mem_singleton.mpr (hseed.mpr hs)

theorem exists_isRead_iff : (∃ o, IsRead d es o) ↔ Fits d es := by
  constructor
  · rintro ⟨o, hkeys, hpreferences, hseed⟩
    refine ⟨hkeys, fun v hv => ?_, fun v hv => ?_⟩
    · exact Document.exists_isOptional_iff.mp ⟨_, hpreferences.given v hv⟩
    · rw [← Document.exists_isUInt64_iff]
      exact Document.exists_isOptional_iff.mp ⟨_, hseed.given v hv⟩
  · rintro ⟨hkeys, hpreferences, hseed⟩
    simp only [← Document.exists_isUInt64_iff, ← Document.exists_isOptional_iff] at hpreferences hseed
    obtain ⟨ps, hps⟩ := (Document.exists_isField_iff hkeys).mpr hpreferences
    obtain ⟨n, hn⟩ := (Document.exists_isField_iff hkeys).mpr hseed
    exact ⟨⟨ps, n⟩, hkeys, hps, hn⟩

/-- A rearrangement of the entries holds the same overrides. -/
theorem isRead_iff {d' : Document} {R : Node → Node → Prop} (h : d.Rearranges d' R)
    (es es' : List (Node × Node)) (hes : SameEntries R es es') (o : Overrides) :
    IsRead d es o ↔ IsRead d' es' o := by
  have hkeys := h.keysAmong_iff hes ["prefix_preference", "random_seed"]
  have hpreferences := h.isField_iff hes (h.isOptional (h.isList (h.isNamed Preference.name)))
    "prefix_preference" none o.preferences
  have hseed := h.isField_iff hes (h.isOptional h.isUInt64) "random_seed" none o.seed
  constructor
  · rintro ⟨hk, hp, hs⟩
    exact ⟨hkeys.mp hk, hpreferences.mp hp, hseed.mp hs⟩
  · rintro ⟨hk, hp, hs⟩
    exact ⟨hkeys.mpr hk, hpreferences.mpr hp, hseed.mpr hs⟩

end Overrides

/-! ## the record -/

namespace Export

/-- What one field holds. -/
inductive Part where
  | version (v : Option UInt32)
  | preset (name : String)
  | overrides (o : Option Overrides)

/-- The part of the record that a field holds. -/
def part (name : String) (e : Export) : Part :=
  match name with
  | "version" => .version e.version
  | "preset" => .preset e.preset
  | _ => .overrides e.overrides

/-- The node stands for what the field holds: an integer, or overrides, or nothing; the name of a preset
is any scalar. -/
def Part.Holds (d : Document) (node : Node) : Part → Prop
  | .version v => d.IsOptional d.IsUInt32 node v
  | .preset name => d.IsText node name
  | .overrides o => d.IsOptional (d.IsRecord (Overrides.IsRead d)) node o

/-- The entries hold the record. -/
structure IsRead (d : Document) (es : List (Node × Node)) (e : Export) : Prop where
  keys : d.KeysAmong ["version", "preset", "overrides"] es
  version : d.IsField es "version" (d.IsOptional d.IsUInt32) none e.version
  preset : d.IsField es "preset" d.IsText "none" e.preset
  overrides : d.IsField es "overrides" (d.IsOptional (d.IsRecord (Overrides.IsRead d))) none e.overrides

/-- The entries hold a record. -/
structure Fits (d : Document) (es : List (Node × Node)) : Prop where
  keys : d.KeysAmong ["version", "preset", "overrides"] es
  version : ∀ v, d.HasEntry es "version" v →
    d.IsNull v ∨ d.IsPresent v ∧ ∃ n < UInt32.size, d.natural? v = some n
  preset : ∀ v, d.HasEntry es "preset" v → ∃ name, d.text? v = some name
  overrides : ∀ v, d.HasEntry es "overrides" v →
    d.IsNull v ∨ d.IsPresent v ∧ ∃ os, d.IsMapping v os ∧ Overrides.Fits d os

variable {d : Document} {path : Schema.Path} {es : List (Node × Node)} {node : Node} {a b e : Export}

theorem readField_version :
    readField d "version" path node a = .ok b ↔
      (Part.version b.version).Holds d node ∧ b.preset = a.preset ∧ b.overrides = a.overrides := by
  have hput (v : Option UInt32) : { a with version := v } = b ↔
      v = b.version ∧ b.preset = a.preset ∧ b.overrides = a.overrides := by
    cases b
    simp [eq_comm]
  refine (put_eq_ok_iff hput).trans (and_congr_left' ?_)
  exact readOptional_eq_ok_iff fun _ => readUInt32_eq_ok_iff

theorem readField_preset :
    readField d "preset" path node a = .ok b ↔
      (Part.preset b.preset).Holds d node ∧ b.version = a.version ∧ b.overrides = a.overrides := by
  have hput (name : String) : { a with preset := name } = b ↔
      name = b.preset ∧ b.version = a.version ∧ b.overrides = a.overrides := by
    cases b
    simp [eq_comm, and_left_comm]
  exact (put_eq_ok_iff hput).trans (and_congr_left' readText_eq_ok_iff)

theorem readField_overrides :
    readField d "overrides" path node a = .ok b ↔
      (Part.overrides b.overrides).Holds d node ∧ b.version = a.version ∧ b.preset = a.preset := by
  have hput (o : Option Overrides) : { a with overrides := o } = b ↔
      o = b.overrides ∧ b.version = a.version ∧ b.preset = a.preset := by
    cases b
    simp [eq_comm, and_comm, and_left_comm, and_assoc]
  refine (put_eq_ok_iff hput).trans (and_congr_left' ?_)
  exact readOptional_eq_ok_iff fun _ => Overrides.ofNode_eq_ok_iff

theorem fields_lawful (d : Document) : (fields d).Lawful part (Part.Holds d) where
  closed := rfl
  ext := by
    rintro ⟨v, p, o⟩ ⟨v', p', o'⟩ h
    simpa [fields, part] using h
  mix := by
    intro name hname a b
    simp only [fields, List.mem_cons, List.not_mem_nil, or_false] at hname
    obtain rfl | rfl | rfl := hname
    · exact ⟨{ a with version := b.version }, rfl, by simp [fields, part]⟩
    · exact ⟨{ a with preset := b.preset }, rfl, by simp [fields, part]⟩
    · exact ⟨{ a with overrides := b.overrides }, rfl, by simp [fields, part]⟩
  read_eq_ok_iff := by
    intro name hname path node a b
    simp only [fields, List.mem_cons, List.not_mem_nil, or_false] at hname
    obtain rfl | rfl | rfl := hname
    · refine readField_version.trans ?_
      simp [fields, part]
    · refine readField_preset.trans ?_
      simp [fields, part]
    · refine readField_overrides.trans ?_
      simp [fields, part]

/-- **A document** is read exactly where the entries of its root hold the record. -/
theorem ofDocument_eq_ok_iff : ofDocument d = .ok e ↔ d.IsRecord (IsRead d) d.root e := by
  refine (readRecord_eq_ok_iff (fields_lawful d)).trans ?_
  refine exists_congr fun es => and_congr_right fun _ => ?_
  have hversion : d.IsField es "version" (Part.Holds d) (.version none) (.version e.version) ↔ _ :=
    Document.isField_map fun _ _ => Part.version.inj
  have hpreset : d.IsField es "preset" (Part.Holds d) (.preset defaultPreset) (.preset e.preset) ↔ _ :=
    Document.isField_map fun _ _ => Part.preset.inj
  have hoverrides : d.IsField es "overrides" (Part.Holds d) (.overrides none)
      (.overrides e.overrides) ↔ _ := Document.isField_map fun _ _ => Part.overrides.inj
  constructor
  · rintro ⟨hkeys, hfields⟩
    obtain ⟨hv, hrest⟩ := List.forall_mem_cons.mp hfields
    obtain ⟨hp, hrest⟩ := List.forall_mem_cons.mp hrest
    have ho := List.forall_mem_singleton.mp hrest
    exact ⟨hkeys, hversion.mp hv, hpreset.mp hp, hoverrides.mp ho⟩
  · rintro ⟨hkeys, hv, hp, ho⟩
    refine ⟨hkeys, List.forall_mem_cons.mpr ⟨hversion.mpr hv, ?_⟩⟩
    refine List.forall_mem_cons.mpr ⟨hpreset.mpr hp, ?_⟩
    exact List.forall_mem_singleton.mpr (hoverrides.mpr ho)

theorem exists_isRead_iff : (∃ e, IsRead d es e) ↔ Fits d es := by
  have hrecord (v : Node) : (∃ os, d.IsMapping v os ∧ Overrides.Fits d os) ↔
      ∃ o, d.IsRecord (Overrides.IsRead d) v o := by
    rw [Document.exists_isRecord_iff]
    simp only [Overrides.exists_isRead_iff]
  constructor
  · rintro ⟨e, hkeys, hversion, hpreset, hoverrides⟩
    refine ⟨hkeys, fun v hv => ?_, fun v hv => ⟨_, hpreset.given v hv⟩, fun v hv => ?_⟩
    · rw [← Document.exists_isUInt32_iff]
      exact Document.exists_isOptional_iff.mp ⟨_, hversion.given v hv⟩
    · rw [hrecord]
      exact Document.exists_isOptional_iff.mp ⟨_, hoverrides.given v hv⟩
  · rintro ⟨hkeys, hversion, hpreset, hoverrides⟩
    simp only [hrecord, ← Document.exists_isUInt32_iff, ← Document.exists_isOptional_iff]
      at hversion hoverrides
    obtain ⟨v, hv⟩ := (Document.exists_isField_iff hkeys).mpr hversion
    obtain ⟨p, hp⟩ := (Document.exists_isField_iff hkeys).mpr hpreset
    obtain ⟨o, ho⟩ := (Document.exists_isField_iff hkeys).mpr hoverrides
    exact ⟨⟨v, p, o⟩, hkeys, hv, hp, ho⟩

/-- A rearrangement of the entries holds the same record. -/
theorem isRead_iff {d' : Document} {R : Node → Node → Prop} (h : d.Rearranges d' R)
    (es es' : List (Node × Node)) (hes : SameEntries R es es') (e : Export) :
    IsRead d es e ↔ IsRead d' es' e := by
  have hkeys := h.keysAmong_iff hes ["version", "preset", "overrides"]
  have hversion := h.isField_iff hes (h.isOptional h.isUInt32) "version" none e.version
  have hpreset := h.isField_iff hes h.isText "preset" "none" e.preset
  have hoverrides := h.isField_iff hes (h.isOptional (h.isRecord (Overrides.isRead_iff h)))
    "overrides" none e.overrides
  constructor
  · rintro ⟨hk, hv, hp, ho⟩
    exact ⟨hkeys.mp hk, hversion.mp hv, hpreset.mp hp, hoverrides.mp ho⟩
  · rintro ⟨hk, hv, hp, ho⟩
    exact ⟨hkeys.mpr hk, hversion.mpr hv, hpreset.mpr hp, hoverrides.mpr ho⟩

/-- Rearranged documents are read alike. -/
theorem ofDocument_congr {d' : Document} {R : Node → Node → Prop} (h : d.Rearranges d' R)
    (hroot : R d.root d'.root) : ofDocument d = .ok e ↔ ofDocument d' = .ok e := by
  rw [ofDocument_eq_ok_iff, ofDocument_eq_ok_iff]
  exact h.isRecord (isRead_iff h) d.root d'.root hroot e

/-- Is the node the same, or a mapping with the same entries in another order? -/
def Shuffled (d : Document) (v v' : Node) : Prop :=
  v = v' ∨ ∃ tag os os', d.resolve v = .mapping tag os ∧ d.resolve v' = .mapping tag os' ∧ os.Perm os'

/-- The same with a root in place of the root of the document. -/
def ShuffledWith (d : Document) (root : Node) (v v' : Node) : Prop :=
  Shuffled d v v' ∨ v = d.root ∧ v' = root

theorem rearranges_of_shuffled {tag : Option String} {es' : List (Node × Node)}
    (hroot : d.resolve d.root = .mapping tag es) (hes : SameEntries (Shuffled d) es es') :
    d.Rearranges { d with root := .mapping tag es' } (ShuffledWith d (.mapping tag es')) := by
  have hrefl (v : Node) : ShuffledWith d (.mapping tag es') v v := .inl (.inl rfl)
  rintro v v' ((rfl | ⟨t, os, os', hv, hv', hperm⟩) | ⟨rfl, rfl⟩)
  · exact Node.Alike.refl hrefl (d.resolve v)
  · show (d.resolve v).Alike _ (d.resolve v')
    rw [hv, hv']
    exact .mapping t ⟨os', hperm, List.forall₂_same.mpr fun e _ => ⟨hrefl e.1, hrefl e.2⟩⟩
  · rw [hroot]
    obtain ⟨mid, hperm, hmid⟩ := hes
    exact .mapping tag ⟨mid, hperm, hmid.imp fun _ _ h => ⟨.inl h.1, .inl h.2⟩⟩

/-- The order of the entries does not matter, neither in the record nor in the mappings in it. -/
theorem ofDocument_of_shuffled {tag : Option String} {es' : List (Node × Node)}
    (hroot : d.resolve d.root = .mapping tag es) (hes : SameEntries (Shuffled d) es es') :
    ofDocument d = .ok e ↔ ofDocument { d with root := .mapping tag es' } = .ok e :=
  ofDocument_congr (rearranges_of_shuffled hroot hes) (.inr ⟨rfl, rfl⟩)

/-- **Which documents are configuration documents, and what they are read as.**  A document is read
exactly where its root is a mapping that fits, as the record that the mapping holds; documents that differ
in the order of entries, and in whether an alias or its node is written, are read as the same record.  A
text is read as its document is, if it is a single document to its end. -/
theorem schema_acceptance :
    (∀ d : Document,
      ((∃ e, ofDocument d = .ok e) ↔ ∃ es, d.IsMapping d.root es ∧ Fits d es) ∧
      ∀ e, ofDocument d = .ok e ↔ ∃ es, d.IsMapping d.root es ∧ IsRead d es e) ∧
    (∀ (d d' : Document) (R : Node → Node → Prop), d.Rearranges d' R → R d.root d'.root →
      ∀ e, ofDocument d = .ok e ↔ ofDocument d' = .ok e) ∧
    ∀ s e, ofYaml s = .ok e ↔
      (Document.ofText s).complete = true ∧ ofDocument (Document.ofText s) = .ok e := by
  refine ⟨fun d => ⟨?_, fun e => ofDocument_eq_ok_iff⟩,
    fun d d' R h hroot e => ofDocument_congr h hroot, fun s e => readTextAs_eq_ok_iff⟩
  simp only [ofDocument_eq_ok_iff, ← exists_isRead_iff]
  exact Document.exists_isRecord_iff

/-- A document with a single entry. -/
def single (key : String) (value : Scalar) : Document :=
  ⟨.mapping none [(.scalar ⟨key, .plain, none⟩, .scalar value)], [], true⟩

/-- The scalar `!x`: a tag with nothing behind it. -/
def tagAlone : Scalar := ⟨"", .plain, some "!x"⟩

/-- The scalar `-0`. -/
def minusZero : Scalar := ⟨"-0", .plain, none⟩

/-- The scalar `! ~`: a name of nothing behind a tag. -/
def taggedNull : Scalar := ⟨"~", .plain, some "!"⟩

/-- Overrides are read from a tag alone, which is no mapping and does not stand for nothing; no version is
read from a minus sign in front of zero, which stands for an integer in range; and no overrides are read
from a name of nothing behind a tag, which stands for nothing. -/
theorem tag_alone_read_minus_zero_and_tagged_null_refused :
    (¬ (single "overrides" tagAlone).IsNull (.scalar tagAlone) ∧
      (∀ tag es, (single "overrides" tagAlone).resolve (.scalar tagAlone) ≠ .mapping tag es) ∧
      ofDocument (single "overrides" tagAlone) = .ok ⟨none, "none", some .empty⟩ ∧
      ofYaml "overrides: !x\n" = .ok ⟨none, "none", some .empty⟩) ∧
    (minusZero.value = .ok (.integer 0) ∧
      ofDocument (single "version" minusZero) =
        .error (problem [.key "version"] (.invalidType (.integer 0) "u32")) ∧
      ofYaml "version: -0\n" =
        .error (problem [.key "version"] (.invalidType (.integer 0) "u32"))) ∧
    taggedNull.value = .ok .null ∧
      ofDocument (single "overrides" taggedNull) =
        .error (problem [.key "overrides"] (.invalidType .null "struct SelectionOverrides")) ∧
      ofYaml "overrides: ! ~\n" =
        .error (problem [.key "overrides"] (.invalidType .null "struct SelectionOverrides")) := by
  refine ⟨⟨?_, nofun, by decide +kernel, by decide +kernel⟩,
    ⟨rfl, by decide +kernel, by decide +kernel⟩, by decide +kernel, by decide +kernel, by decide +kernel⟩
  rintro ⟨s, hs, -, htag⟩
  cases hs
  exact absurd htag.1 (by decide)

end Export

end PrefixRanking
