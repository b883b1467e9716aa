import Mathlib.Data.List.Sort
import PrefixRanking.Proofs.Occurrences
import PrefixRanking.Proofs.Prefixes

/-!
# Identifiers as sets

Sums of counts saturate on the way, so they depend on the order of the counts.  That a score does not depend
on how the identifiers of a prefix were listed rests on the listing that is kept: there is only one that
ascends in UTF-8 and has the given members (`Identifiers.toList_ofList_eq`).

`Prefix.Lists` says which strings were listed for a prefix, by a list that was set or by a JSON value or a
YAML document that was read.  The main statement is

* `identifiers_form_a_set` -- what is kept of these strings is their set, and prefixes whose listed strings
  differ in order and repetitions are the same in every answer.
-/

namespace PrefixRanking

/-! ## sets of strings -/

namespace Identifiers

variable {l k : List String}

/-- The listing ascends strictly in the order of octets and has the members of the list. -/
structure IsSetOf (ids : Identifiers) (l : List String) : Prop where
  ascending : ids.toList.Pairwise fun i j => Text.octets i < Text.octets j
  mem_iff : ∀ id, id ∈ ids.toList ↔ id ∈ l

theorem isSetOf_ofList (l : List String) : (ofList l).IsSetOf l :=
  ⟨(ofList l).octets_ascending, fun _ => mem_toList_ofList⟩

/-- **One listing ascends**: any other one with the same members is the same. -/
theorem toList_ofList_eq (hk : k.Pairwise fun i j => Text.octets i < Text.octets j)
    (h : ∀ id, id ∈ k ↔ id ∈ l) : (ofList l).toList = k := by
  have hascending : k.Pairwise (· < ·) := hk.imp Text.octets_lt_iff.mp
  refine (ofList l).ascending.sortedLT.eq_of_mem_iff hascending.sortedLT fun id => ?_
  rw [mem_toList_ofList, h]

/-- Two lists make the same set exactly if they have the same members. -/
theorem ofList_eq_iff : ofList l = ofList k ↔ ∀ id, id ∈ l ↔ id ∈ k := by
  constructor
  · intro h id
    rw [← mem_toList_ofList, h, mem_toList_ofList]
  · intro h
    refine ext (toList_ofList_eq (ofList k).octets_ascending fun id => ?_)
    rw [mem_toList_ofList, h]

end Identifiers

/-! ## prefixes and questions about them -/

namespace Prefix

/-- The strings that were listed as the identifiers of a prefix. -/
inductive Lists : Prefix → List String → Prop
  | set (x : Prefix) (l : List String) : Lists (x.withIdentifiers l) l
  | json {v : Json.Value} {x : Prefix} {l : List String} (h : ofJson v = .ok x) (hl : JsonLists v l) :
      Lists x l
  | yaml {d : Yaml.Document} {x : Prefix} {l : List String} (h : ofDocument d = .ok x)
      (hl : YamlLists d l) : Lists x l

theorem Lists.identifiers_eq {x : Prefix} {l : List String} (h : x.Lists l) :
    x.identifiers = .ofList l := by
  cases h with
  | set => rfl
  | json h hl => exact identifiers_of_jsonLists h hl
  | yaml h hl => exact identifiers_of_yamlLists h hl

/-- The prefixes have the same measurements, and the same strings were listed for them, in whatever order
and with whatever repetitions. -/
structure Relisted (x y : Prefix) : Prop where
  pathLength : x.pathLength = y.pathLength
  nontrivialLength : x.nontrivialLength = y.nontrivialLength
  pivotDepth : x.pivotDepth = y.pivotDepth
  listed : ∃ l k, x.Lists l ∧ y.Lists k ∧ ∀ id, id ∈ l ↔ id ∈ k

theorem Relisted.eq {x y : Prefix} (h : x.Relisted y) : x = y := by
  obtain ⟨l, k, hl, hk, hmem⟩ := h.listed
  have hids : x.identifiers = y.identifiers := by
    rw [hl.identifiers_eq, hk.identifiers_eq, Identifiers.ofList_eq_iff]
    exact hmem
  cases x
  cases y
  rw [mk.injEq]
  exact ⟨h.pathLength, h.nontrivialLength, h.pivotDepth, hids⟩

theorem Relisted.eq_of_forall₂ {xs ys : List Prefix} (h : List.Forall₂ Relisted xs ys) : xs = ys :=
  List.forall₂_eq_eq_eq ▸ h.imp fun _ _ => Relisted.eq

end Prefix

/-- The same question about other prefixes, which were listed anew. -/
inductive Question.Relisted : Question → Question → Prop
  | index (ps : List Preference) {xs ys : List Prefix} (h : List.Forall₂ Prefix.Relisted xs ys) :
      Relisted (.index ps xs) (.index ps ys)
  | best (ps : List Preference) {xs ys : List Prefix} (h : List.Forall₂ Prefix.Relisted xs ys) :
      Relisted (.best ps xs) (.best ps ys)
  | aggregate (p : Preference) {xs ys : List Prefix} (h : List.Forall₂ Prefix.Relisted xs ys) :
      Relisted (.aggregate xs p) (.aggregate ys p)
  | score (p : Preference) {x y : Prefix} (h : x.Relisted y) : Relisted (.score p x) (.score p y)
  | compare (p : Preference) {x x' y y' : Prefix} (hx : x.Relisted x') (hy : y.Relisted y') :
      Relisted (.compare p x y) (.compare p x' y')

theorem Question.Relisted.eq {q r : Question} (h : q.Relisted r) : q = r := by
  cases h with
  | index ps h | best ps h | aggregate p h => rw [Prefix.Relisted.eq_of_forall₂ h]
  | score p h => rw [h.eq]
  | compare p hx hy => rw [hx.eq, hy.eq]

/-! ## the main statement -/

/-- The score of a prefix for few occurrences is the sum along any ascending listing of what was listed. -/
theorem ask_score_listed (s : Selector) {c : Classification} (hc : s.analyses.classification = some c)
    {m : Measure} {count : Classification → String → Score} (hm : m.AddsUp count) {x : Prefix}
    {l : List String} (hl : x.Lists l) {ids : List String}
    (hids : ids.Pairwise fun i j => Text.octets i < Text.octets j) (hmem : ∀ id, id ∈ ids ↔ id ∈ l) :
    s.ask (.score (.by m .min) x) = (.ok (.score (.sum (ids.map (count c)))), s) := by
  rw [Selector.ask_score_fixed (by simp) (scorable_of_classification hc m .min), hm.scoreOn_min hc,
    hl.identifiers_eq, Identifiers.toList_ofList_eq hids hmem]

/-- **Identifiers are a set.**  Whichever way strings were listed for a prefix, its identifiers are their
set, in the order of their octets, in which occurrences are added up; all strings can be listed in each way;
and prefixes that were listed anew, with other repetitions and in another order, are equal, so a session of
questions about them has the same answers under any analyses. -/
theorem identifiers_form_a_set :
    (∀ x l, Prefix.Lists x l → x.identifiers.IsSetOf l ∧
      ∀ (s : Selector) c m count (ids : List String), s.analyses.classification = some c → Measure.AddsUp m count →
        ids.Pairwise (fun i j => Text.octets i < Text.octets j) → (∀ id, id ∈ ids ↔ id ∈ l) →
        s.ask (.score (.by m .min) x) = (.ok (.score (.sum (ids.map (count c)))), s)) ∧
    (∀ v x, Prefix.ofJson v = .ok x → ∃ l, Prefix.JsonLists v l ∧ x.Lists l) ∧
    (∀ t x, Prefix.ofYaml t = .ok x → ∃ l, Prefix.YamlLists (.ofText t) l ∧ x.Lists l) ∧
    (∀ (x : Prefix) l,
      (∃ v, Prefix.JsonLists v l ∧ Prefix.ofJson v = .ok (x.withIdentifiers l)) ∧
      ∃ d, Prefix.YamlLists d l ∧ Prefix.ofDocument d = .ok (x.withIdentifiers l)) ∧
    (∀ xs ys, List.Forall₂ Prefix.Relisted xs ys → xs = ys) ∧
    ∀ (s : Selector) qs rs, List.Forall₂ Question.Relisted qs rs → s.askEach qs = s.askEach rs := by
  refine ⟨fun x l hl => ⟨?_, fun s c m count ids hc hm hids hmem => ?_⟩, fun v x h => ?_, fun t x h => ?_,
    fun x l => ⟨⟨_, x.jsonLists_members l, x.ofJson_object l⟩, _, x.yamlLists_document l,
      x.ofDocument_mapping l⟩, fun xs ys h => Prefix.Relisted.eq_of_forall₂ h,
    fun s qs rs h => ?_⟩
  · rw [hl.identifiers_eq]
    exact Identifiers.isSetOf_ofList l
  · exact ask_score_listed s hc hm hl hids hmem
  · obtain ⟨l, hl⟩ := Prefix.exists_jsonLists h
    exact ⟨l, hl, .json h hl⟩
  · obtain ⟨-, h⟩ := Yaml.readTextAs_eq_ok_iff.mp h
    obtain ⟨l, hl⟩ := Prefix.exists_yamlLists h
    exact ⟨l, hl, .yaml h hl⟩
  · have heq : qs = rs := List.forall₂_eq_eq_eq ▸ h.imp fun _ _ => Question.Relisted.eq
    rw [heq]

/-- Counts of both signs have another sum in another order. -/
example :
    let count (id : String) : Score := .clamp (if id = "é" then -1 else 2000000000)
    Score.sum (["a", "b", "é"].map count) ≠ Score.sum (["a", "é", "b"].map count) ∧
      (Identifiers.ofList ["é", "b", "a", "b"]).toList = ["a", "b", "é"] := by
  decide +kernel

end PrefixRanking
