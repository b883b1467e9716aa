import PrefixRanking.Prefix.Read
import PrefixRanking.Proofs.Json.Members
import PrefixRanking.Proofs.Yaml.Accepting
import PrefixRanking.Proofs.Yaml.Reading

/-!
# The identifiers of prefixes that are read

`JsonLists` and `YamlLists` say which strings a JSON value and a YAML document list as the identifiers of a
prefix.  A prefix that is read has the set of these strings as its identifiers, whatever else there is in
the value or the document:

* `identifiers_of_jsonLists`, `identifiers_of_yamlLists` -- the identifiers are those that are listed, and
  `exists_jsonLists` and `exists_yamlLists` say that nothing is read where there is no list of strings;
* `ofJson_object`, `ofDocument_mapping` -- every list of strings can be given.
-/

namespace PrefixRanking.Prefix

open Yaml (Node Document)

variable {x : Prefix} {l : List String}

/-! ## JSON -/

/-- The part of a JSON value that lists the identifiers: a member of an object, or the fourth element of an
array. -/
def identifiersField? : Json.Value → Option Json.Value
  | .object members => Json.member? "identifiers" members
  | .array elements => elements[3]?
  | _ => none

/-- The strings that a JSON value lists as identifiers, none where there is no list. -/
inductive JsonLists (v : Json.Value) : List String → Prop
  | given {l : List String} (h : identifiersField? v = some (.array (l.map .string))) : JsonLists v l
  | missing (h : identifiersField? v = none) : JsonLists v []

/-- What is read of an object is what its member lists. -/
theorem readMember_of_ofMembers {members : List (String × Json.Value)} (h : ofMembers members = .ok x) :
    ∃ ids, Json.readMember "identifiers" identifiersOfJson members = .ok ids ∧
      x.identifiers = ids.getD .empty := by
  obtain ⟨ids, hids, h⟩ := bind_eq_ok_iff.mp h
  -- the three measurements are read, and each of them has to be there
  obtain ⟨_, _, h⟩ := bind_eq_ok_iff.mp h
  obtain ⟨_, _, h⟩ := bind_eq_ok_iff.mp h
  obtain ⟨_, _, h⟩ := bind_eq_ok_iff.mp h
  obtain ⟨_, _, h⟩ := bind_eq_ok_iff.mp h
  obtain ⟨_, _, h⟩ := bind_eq_ok_iff.mp h
  obtain ⟨_, _, rfl⟩ := map_eq_ok_iff.mp h
  exact ⟨ids, hids, rfl⟩

/-- What is read of an array is what its element lists. -/
theorem readElement_of_ofElements {elements : List Json.Value} (h : ofElements elements = .ok x) :
    ∃ ids, Json.readElement 3 identifiersOfJson elements = .ok ids ∧
      x.identifiers = ids.getD .empty := by
  obtain ⟨_, _, h⟩ := bind_eq_ok_iff.mp h
  obtain ⟨_, _, h⟩ := bind_eq_ok_iff.mp h
  obtain ⟨_, _, h⟩ := bind_eq_ok_iff.mp h
  obtain ⟨ids, hids, h⟩ := bind_eq_ok_iff.mp h
  obtain ⟨_, _, rfl⟩ := map_eq_ok_iff.mp h
  exact ⟨ids, hids, rfl⟩

/-- What is read of a value is what its field lists. -/
theorem exists_rel_of_ofJson {v : Json.Value} (h : ofJson v = .ok x) :
    ∃ ids, Option.Rel (fun v ids => identifiersOfJson v = .ok ids) (identifiersField? v) ids ∧
      x.identifiers = ids.getD .empty := by
  cases v with
  | object members =>
      obtain ⟨ids, hids, hx⟩ := readMember_of_ofMembers h
      exact ⟨ids, Json.readMember_eq_ok_iff.mp hids, hx⟩
  | array elements =>
      obtain ⟨ids, hids, hx⟩ := readElement_of_ofElements h
      exact ⟨ids, Json.readElement_eq_ok_iff.mp hids, hx⟩
  | null | bool | integer | float | string => contradiction

theorem identifiersOfJson_eq_ok_iff {v : Json.Value} {ids : Identifiers} :
    identifiersOfJson v = .ok ids ↔ ∃ l : List String, v = .array (l.map .string) ∧ .ofList l = ids := by
  refine map_eq_ok_iff.trans (exists_congr fun l => ?_)
  rw [Json.readTexts_eq_ok_iff]

/-- A value from which a prefix is read lists its identifiers. -/
theorem exists_jsonLists {v : Json.Value} (h : ofJson v = .ok x) : ∃ l, JsonLists v l := by
  obtain ⟨ids, hids, -⟩ := exists_rel_of_ofJson h
  generalize hv : identifiersField? v = field at hids
  cases hids with
  | none => exact ⟨[], .missing hv⟩
  | some hread =>
      obtain ⟨l, rfl, -⟩ := identifiersOfJson_eq_ok_iff.mp hread
      exact ⟨l, .given hv⟩

/-- **A prefix that is read from a JSON value** has the identifiers that the value lists. -/
theorem identifiers_of_jsonLists {v : Json.Value} (h : ofJson v = .ok x) (hl : JsonLists v l) :
    x.identifiers = .ofList l := by
  obtain ⟨ids, hids, hx⟩ := exists_rel_of_ofJson h
  rw [hx]
  cases hl with
  | given hv =>
      rw [hv] at hids
      cases hids with
      | some hread =>
          rw [identifiersOfJson_eq_ok_iff.mpr ⟨l, rfl, rfl⟩] at hread
          cases hread
          rfl
  | missing hv =>
      rw [hv] at hids
      cases hids
      rfl

/-- The members of an object with these measurements and identifiers. -/
def members (x : Prefix) (l : List String) : List (String × Json.Value) :=
  [("path_length", .integer x.pathLength.toNat),
    ("nontrivial_length", .integer x.nontrivialLength.toNat),
    ("pivot_depth", .integer x.pivotDepth.toNat),
    ("identifiers", .array (l.map .string))]

theorem jsonLists_members (x : Prefix) (l : List String) : JsonLists (.object (x.members l)) l :=
  .given rfl

/-- Any strings can be listed in an object. -/
theorem ofJson_object (x : Prefix) (l : List String) :
    ofJson (.object (x.members l)) = .ok (x.withIdentifiers l) := by
  have hids : Json.readMember "identifiers" identifiersOfJson (x.members l) =
      .ok (some (.ofList l)) :=
    Json.readMember_eq_ok_iff.mpr (.some (identifiersOfJson_eq_ok_iff.mpr ⟨l, rfl, rfl⟩))
  have hnumber (key : String) (n : UInt64)
      (h : Json.member? key (x.members l) = some (.integer n.toNat)) :
      Json.readMember key (Json.readUInt64 "usize") (x.members l) = .ok (some n) := by
    rw [Json.readMember_eq_ok_iff, h]
    exact .some (Json.readUInt64_toNat "usize" n)
  rw [ofJson, ofMembers, hids, hnumber "nontrivial_length" x.nontrivialLength rfl,
    hnumber "path_length" x.pathLength rfl, hnumber "pivot_depth" x.pivotDepth rfl]
  rfl

/-! ## YAML -/

/-- The strings that a YAML document lists as identifiers, none where there is no list. -/
inductive YamlLists (d : Document) : List String → Prop
  | given {es : List (Node × Node)} {v : Node} {l : List String} (h : d.IsMapping d.root es)
      (hv : d.HasEntry es "identifiers" v) (hl : d.IsList d.IsText v l) : YamlLists d l
  | missing {es : List (Node × Node)} (h : d.IsMapping d.root es)
      (hnone : ∀ v, ¬ d.HasEntry es "identifiers" v) : YamlLists d []

section

variable {d : Document}

theorem readTexts_eq_ok_iff (path : Schema.Path) {node : Node} :
    Yaml.readList d path (fun place => Yaml.readText d place "a string") node = .ok l ↔
      d.IsList d.IsText node l := by
  have hitem (place : Schema.Path) (item : Node) (s : String) :
      Yaml.readText d place "a string" item = .ok s ↔ d.IsText item s := Yaml.readText_eq_ok_iff
  exact Yaml.readList_eq_ok_iff hitem

/-- The field of the identifiers holds a set of strings that are listed. -/
theorem isField_of_readEntries {es : List (Node × Node)} {p : Partial}
    (h : Yaml.readEntries d [] (fields d) [] ⟨none, none, none, none⟩ es = .ok p) :
    d.IsField es "identifiers" (fun v ids => ∃ l, d.IsList d.IsText v l ∧ ids = some (.ofList l)) none
      p.identifiers := by
  refine (Yaml.isField_of_readEntries Partial.identifiers (by simp [fields]) ?_ ?_ h).1
  · intro path node a b hread
    obtain ⟨l, hl, rfl⟩ := map_eq_ok_iff.mp hread
    exact ⟨l, (readTexts_eq_ok_iff path).mp hl, rfl⟩
  · intro other hother hne path node a b hread
    simp only [fields, List.mem_cons, List.not_mem_nil, or_false] at hother
    obtain rfl | rfl | rfl | rfl := hother
    · obtain ⟨n, -, rfl⟩ := map_eq_ok_iff.mp hread
      rfl
    · obtain ⟨n, -, rfl⟩ := map_eq_ok_iff.mp hread
      rfl
    · obtain ⟨n, -, rfl⟩ := map_eq_ok_iff.mp hread
      rfl
    · contradiction

/-- What is read of a document is what the entries of its mapping list. -/
theorem exists_isField_of_ofDocument (h : ofDocument d = .ok x) :
    ∃ es ids, d.IsMapping d.root es ∧
      d.IsField es "identifiers" (fun v ids => ∃ l, d.IsList d.IsText v l ∧ ids = some (.ofList l)) none
        ids ∧
      x.identifiers = ids.getD .empty := by
  obtain ⟨p, hp, h⟩ := bind_eq_ok_iff.mp h
  obtain ⟨_, _, h⟩ := bind_eq_ok_iff.mp h
  obtain ⟨_, _, h⟩ := bind_eq_ok_iff.mp h
  obtain ⟨_, _, rfl⟩ := map_eq_ok_iff.mp h
  obtain ⟨es, hes, hentries⟩ := Yaml.readRecord_eq_ok_iff_readEntries.mp hp
  exact ⟨es, p.identifiers, hes, isField_of_readEntries hentries, rfl⟩

/-- A document from which a prefix is read lists its identifiers. -/
theorem exists_yamlLists (h : ofDocument d = .ok x) : ∃ l, YamlLists d l := by
  obtain ⟨es, ids, hes, hfield, -⟩ := exists_isField_of_ofDocument h
  by_cases hsome : ∃ v, d.HasEntry es "identifiers" v
  · obtain ⟨v, hv⟩ := hsome
    obtain ⟨l, hl, -⟩ := hfield.given v hv
    exact ⟨l, .given hes hv hl⟩
  · exact ⟨[], .missing hes (not_exists.mp hsome)⟩

/-- **A prefix that is read from a YAML document** has the identifiers that the document lists. -/
theorem identifiers_of_yamlLists (h : ofDocument d = .ok x) (hl : YamlLists d l) :
    x.identifiers = .ofList l := by
  obtain ⟨es, ids, hes, hfield, hx⟩ := exists_isField_of_ofDocument h
  rw [hx]
  cases hl with
  | given hes' hv hl =>
      obtain ⟨k, hk, rfl⟩ := hfield.given _ (hes'.unique hes ▸ hv)
      have hlk : (.ok l : Yaml.Result (List String)) = .ok k := by
        rw [← (readTexts_eq_ok_iff []).mpr hl, (readTexts_eq_ok_iff []).mpr hk]
      cases hlk
      rfl
  | missing hes' hnone =>
      rw [hfield.missing (hes'.unique hes ▸ hnone)]
      rfl

/-- The entries of a mapping with these measurements and identifiers. -/
def entries (x : Prefix) (l : List String) : List (Node × Node) :=
  [(.plain "path_length", .plain (toString x.pathLength.toNat)),
    (.plain "nontrivial_length", .plain (toString x.nontrivialLength.toNat)),
    (.plain "pivot_depth", .plain (toString x.pivotDepth.toNat)),
    (.plain "identifiers", .sequence none (l.map fun s => .scalar ⟨s, .quoted, none⟩))]

/-- A document of these entries. -/
def document (x : Prefix) (l : List String) : Document := ⟨.mapping none (x.entries l), [], true⟩

theorem isList_quoted (d : Document) (l : List String) :
    d.IsList d.IsText (.sequence none (l.map fun s => .scalar ⟨s, .quoted, none⟩)) l := by
  refine .items rfl ?_
  rw [List.forall₂_map_left_iff]
  exact List.forall₂_same.mpr fun s _ => rfl

theorem yamlLists_document (x : Prefix) (l : List String) : YamlLists (x.document l) l :=
  .given (.entries rfl) ⟨.plain "identifiers", by simp [entries], rfl⟩ (isList_quoted _ l)

/-- An entry puts its part into the record, and the others are kept. -/
theorem readEntries_of_readField {name : String} {seen : List String} {v : Node} {p q : Partial}
    {es : List (Node × Node)} (hv : readField d name [.key name] v p = .ok q)
    (hname : name ∈ (fields d).names) (hseen : name ∉ seen) :
    Yaml.readEntries d [] (fields d) seen p ((.plain name, v) :: es) =
      Yaml.readEntries d [] (fields d) (name :: seen) q es := by
  rw [Yaml.readEntries_plain hname hseen]
  show (readField d name [.key name] v p).bind _ = _
  rw [hv]
  rfl

theorem readEntries_entries (d : Document) (x : Prefix) (l : List String) :
    Yaml.readEntries d [] (fields d) [] ⟨none, none, none, none⟩ (x.entries l) =
      .ok ⟨some x.pathLength, some x.nontrivialLength, some x.pivotDepth, some (.ofList l)⟩ := by
  have hlength (p : Partial) : readField d "path_length" [.key "path_length"]
      (.plain (toString x.pathLength.toNat)) p = .ok { p with pathLength := some x.pathLength } :=
    map_eq_ok_iff.mpr ⟨_, Yaml.readUInt64_toString _ _, rfl⟩
  have hwidth (p : Partial) : readField d "nontrivial_length" [.key "nontrivial_length"]
      (.plain (toString x.nontrivialLength.toNat)) p =
        .ok { p with nontrivialLength := some x.nontrivialLength } :=
    map_eq_ok_iff.mpr ⟨_, Yaml.readUInt64_toString _ _, rfl⟩
  have hpivot (p : Partial) : readField d "pivot_depth" [.key "pivot_depth"]
      (.plain (toString x.pivotDepth.toNat)) p = .ok { p with pivotDepth := some x.pivotDepth } :=
    map_eq_ok_iff.mpr ⟨_, Yaml.readUInt64_toString _ _, rfl⟩
  have hids (p : Partial) : readField d "identifiers" [.key "identifiers"]
      (.sequence none (l.map fun s => .scalar ⟨s, .quoted, none⟩)) p =
        .ok { p with identifiers := some (.ofList l) } :=
    map_eq_ok_iff.mpr ⟨l, (readTexts_eq_ok_iff _).mpr (isList_quoted d l), rfl⟩
  rw [entries, readEntries_of_readField (hlength _) (by simp [fields]) (by simp),
    readEntries_of_readField (hwidth _) (by simp [fields]) (by simp),
    readEntries_of_readField (hpivot _) (by simp [fields]) (by simp),
    readEntries_of_readField (hids _) (by simp [fields]) (by simp)]
  rfl

/-- Any strings can be listed in a document. -/
theorem ofDocument_mapping (x : Prefix) (l : List String) :
    ofDocument (x.document l) = .ok (x.withIdentifiers l) := by
  have hentries := readEntries_entries (x.document l) x l
  rw [ofDocument, Yaml.readRecord_eq_ok_iff_readEntries.mpr ⟨_, .entries rfl, hentries⟩]
  rfl

end

end PrefixRanking.Prefix
