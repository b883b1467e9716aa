import Mathlib.Data.List.Nodup
import Mathlib.Order.Bounds.Basic
import PrefixRanking.Config.Basic

/-!
# Valid lists of preferences

What validation establishes (`validate_eq_ok_iff`): a list that is not empty, has no entry twice, and has
`none` only as its single entry.  Its errors are problems of the list (`isListProblem_of_validate`).

`firstRepeated?_eq_some_iff` divides a list at the entry that the search stops at: all entries in front of
it are different.  So that entry stands at the first position whose entry occurs before
(`isLeast_repeatsAt`).  `Defect` is the problem of a list by what is in it, and the main statement is

* `validation_reports_defect` -- validation accepts the valid lists and reports the defect of any other.
-/

namespace PrefixRanking

/-- A list of preferences that can be configured. -/
structure ValidList (ps : List Preference) : Prop where
  nonempty : ps ≠ []
  alone : .none ∈ ps → ps = [.none]
  distinct : ps.Nodup

/-- A valid list draws at most once for each candidate. -/
theorem ValidList.count_random_le_one {ps : List Preference} (h : ValidList ps) :
    ps.count .random ≤ 1 :=
  List.nodup_iff_count_le_one.mp h.distinct .random

namespace Config

theorem firstRepeated?_eq_none_iff (seen ps : List Preference) :
    firstRepeated? seen ps = none ↔ ps.Nodup ∧ ∀ p ∈ ps, p ∉ seen := by
  induction ps generalizing seen with
  | nil => simp [firstRepeated?]
  | cons p ps ih =>
      rw [firstRepeated?]
      by_cases hp : p ∈ seen
      · simp [hp]
      · rw [if_neg hp, ih, List.nodup_cons]
        constructor
        · rintro ⟨hnd, hall⟩
          refine ⟨⟨fun hm => ?_, hnd⟩, fun q hq => ?_⟩
          · exact hall p hm List.mem_cons_self
          · cases hq with
            | head => exact hp
            | tail _ hm => exact fun hs => hall q hm (List.mem_cons_of_mem p hs)
        · rintro ⟨⟨hn, hnd⟩, hall⟩
          refine ⟨hnd, fun q hq hs => ?_⟩
          cases hs with
          | head => exact hn hq
          | tail _ hm => exact hall q (List.mem_cons_of_mem p hq) hm

theorem listProblem?_eq_none_iff (ps : List Preference) : listProblem? ps = none ↔ ValidList ps := by
  rw [listProblem?]
  cases ps with
  | nil => exact ⟨fun h => by contradiction, fun h => absurd rfl h.nonempty⟩
  | cons p ps =>
      rw [if_neg (by simp)]
      by_cases hmix : 1 < (p :: ps).length ∧ .none ∈ p :: ps
      · rw [if_pos hmix]
        refine ⟨fun h => by contradiction, fun h => ?_⟩
        rw [h.alone hmix.2] at hmix
        simp at hmix
      · rw [if_neg hmix, Option.map_eq_none_iff, firstRepeated?_eq_none_iff]
        constructor
        · rintro ⟨hnd, _⟩
          refine ⟨by simp, fun hn => ?_, hnd⟩
          have hps : ps = [] := by
            have hlen : ¬ 1 < (p :: ps).length := fun hl => hmix ⟨hl, hn⟩
            rw [List.length_cons] at hlen
            exact List.length_eq_zero_iff.mp (by omega)
          rw [hps, List.mem_singleton] at hn
          rw [hps, ← hn]
        · intro h
          exact ⟨h.distinct, by simp⟩

/-- **Validation accepts exactly the valid lists.** -/
theorem validate_eq_ok_iff (c : Config) : c.validate = .ok () ↔ ValidList c.preferences := by
  rw [validate, ← listProblem?_eq_none_iff]
  cases listProblem? c.preferences <;> simp

end Config

/-- Is the error one of a list of preferences that was read? -/
def ConfigError.IsListProblem : ConfigError → Prop
  | emptyPreferenceList | noneMixedWithHeuristics _ | duplicatePreference _ => True
  | unknownPreference _ | unknownPreset _ | missingVersion | unsupportedVersion .. | file _ | yaml _ =>
    False

namespace Config

theorem isListProblem_of_listProblem? {ps : List Preference} {e : ConfigError}
    (h : listProblem? ps = some e) : e.IsListProblem := by
  rw [listProblem?] at h
  split at h
  · cases h
    trivial
  · split at h
    · cases h
      trivial
    · obtain ⟨p, -, rfl⟩ := Option.map_eq_some_iff.mp h
      trivial

/-- Validation finds problems of the list only. -/
theorem isListProblem_of_validate {c : Config} {e : ConfigError} (h : c.validate = .error e) :
    e.IsListProblem := by
  rw [validate] at h
  cases hp : listProblem? c.preferences with
  | none =>
      rw [hp] at h
      contradiction
  | some e' =>
      rw [hp] at h
      cases h
      exact isListProblem_of_listProblem? hp

end Config

/-! ## the first repeated entry -/

namespace Config

/-- **Where the search stops**: at an entry that was seen or stands in front, behind entries that are all
new and different. -/
theorem firstRepeated?_eq_some_iff {seen ps : List Preference} {p : Preference} :
    firstRepeated? seen ps = some p ↔
      ∃ before after, ps = before ++ p :: after ∧ before.Nodup ∧ (∀ q ∈ before, q ∉ seen) ∧
        (p ∈ seen ∨ p ∈ before) := by
  induction ps generalizing seen with
  | nil => simp [firstRepeated?]
  | cons q ps ih =>
      rw [firstRepeated?]
      by_cases hq : q ∈ seen
      · rw [if_pos hq, Option.some.injEq]
        constructor
        · intro h
          exact ⟨[], ps, by rw [h]; rfl, List.nodup_nil, List.forall_mem_nil _, .inl (h ▸ hq)⟩
        · rintro ⟨before, after, he, -, hnew, -⟩
          cases before with
          | nil => exact (List.cons.inj he).1
          | cons r before =>
              have hr : q = r := (List.cons.inj he).1
              exact absurd hq (hr ▸ hnew r List.mem_cons_self)
      · -- the head is new: it is seen from here on, and it is the first entry in front of the repeated one
        rw [if_neg hq, ih]
        constructor
        · rintro ⟨before, after, rfl, hnd, hnew, hp⟩
          have hqb : q ∉ before := fun hm => hnew q hm List.mem_cons_self
          refine ⟨q :: before, after, rfl, List.nodup_cons.mpr ⟨hqb, hnd⟩, ?_, ?_⟩
          · intro r hr
            cases hr with
            | head => exact hq
            | tail _ hm => exact fun hs => hnew r hm (List.mem_cons_of_mem q hs)
          · simp only [List.mem_cons] at hp ⊢
            tauto
        · rintro ⟨before, after, he, hnd, hnew, hp⟩
          cases before with
          | nil =>
              have hpq : q = p := (List.cons.inj he).1
              simp [← hpq, hq] at hp
          | cons r before =>
              obtain ⟨rfl, rfl⟩ := List.cons.inj he
              obtain ⟨hqb, hnd⟩ := List.nodup_cons.mp hnd
              refine ⟨before, after, rfl, hnd, ?_, ?_⟩
              · intro t ht hs
                cases hs with
                | head => exact hqb ht
                | tail _ hs => exact hnew t (List.mem_cons_of_mem q ht) hs
              · simp only [List.mem_cons] at hp ⊢
                tauto

end Config

/-- The entry at this position occurs before it. -/
def RepeatsAt (ps : List Preference) (i : Nat) : Prop :=
  ∃ p, ps[i]? = some p ∧ ∃ j < i, ps[j]? = some p

theorem RepeatsAt.two_le_length {ps : List Preference} {i : Nat} (h : RepeatsAt ps i) :
    2 ≤ ps.length := by
  obtain ⟨p, hp, j, hj, -⟩ := h
  have hlt := (List.getElem?_eq_some_iff.mp hp).1
  omega

/-- In a list without repetitions no entry occurs before. -/
theorem RepeatsAt.not_nodup {ps : List Preference} {i : Nat} (h : RepeatsAt ps i) : ¬ ps.Nodup := by
  obtain ⟨p, hp, j, hj, hp'⟩ := h
  intro hnd
  have hlt := (List.getElem?_eq_some_iff.mp hp).1
  exact List.nodup_iff_getElem?_ne_getElem?.mp hnd j i hj hlt (hp'.trans hp.symm)

/-- Behind entries that are all different, an entry that is one of them is the first to repeat. -/
theorem isLeast_repeatsAt {before after : List Preference} {p : Preference} (hnd : before.Nodup)
    (hp : p ∈ before) : IsLeast {i | RepeatsAt (before ++ p :: after) i} before.length := by
  constructor
  · obtain ⟨j, hj⟩ := List.mem_iff_getElem?.mp hp
    have hlt := (List.getElem?_eq_some_iff.mp hj).1
    exact ⟨p, by simp, j, hlt, (List.getElem?_append_left hlt).trans hj⟩
  · rintro i ⟨q, hq, j, hj, hq'⟩
    by_contra hi
    have hlt : i < before.length := not_le.mp hi
    rw [List.getElem?_append_left hlt] at hq
    rw [List.getElem?_append_left (hj.trans hlt)] at hq'
    exact RepeatsAt.not_nodup ⟨q, hq, j, hj, hq'⟩ hnd

/-- The search finds the entry at the first position whose entry occurs before. -/
theorem Config.firstRepeated?_nil_eq_some_iff {ps : List Preference} {p : Preference} :
    firstRepeated? [] ps = some p ↔ ∃ i, IsLeast {i | RepeatsAt ps i} i ∧ ps[i]? = some p := by
  constructor
  · intro h
    obtain ⟨before, after, rfl, hnd, -, hp⟩ := firstRepeated?_eq_some_iff.mp h
    have hmem : p ∈ before := hp.resolve_left List.not_mem_nil
    exact ⟨before.length, isLeast_repeatsAt hnd hmem, by simp⟩
  · rintro ⟨i, hi, hp⟩
    cases hf : firstRepeated? [] ps with
    | none => exact absurd ((firstRepeated?_eq_none_iff [] ps).mp hf).1 hi.1.not_nodup
    | some q =>
        obtain ⟨before, after, rfl, hnd, -, hq⟩ := firstRepeated?_eq_some_iff.mp hf
        have hmem : q ∈ before := hq.resolve_left List.not_mem_nil
        rw [hi.unique (isLeast_repeatsAt hnd hmem)] at hp
        simpa using hp

/-! ## the main statement -/

/-- What is wrong with a list of preferences.  Of several problems it is the first of: no entry at all,
`none` beside other entries or twice, the first entry that is there before. -/
inductive Defect (ps : List Preference) : ConfigError → Prop
  | empty (h : ps = []) : Defect ps .emptyPreferenceList
  | mixed (hlen : 2 ≤ ps.length) (hnone : .none ∈ ps) :
      Defect ps (.noneMixedWithHeuristics (String.intercalate ", " (ps.map Preference.name)))
  | repeated (hmixed : ¬ (2 ≤ ps.length ∧ .none ∈ ps)) {i : Nat} {p : Preference}
      (hi : IsLeast {i | RepeatsAt ps i} i) (hp : ps[i]? = some p) : Defect ps (.duplicatePreference p)

theorem Text.join_eq_intercalate (sep : String) (l : List String) : join sep l = sep.intercalate l := by
  induction l with
  | nil => rfl
  | cons s l ih =>
      cases l with
      | nil => simp [join]
      | cons t l => rw [join, ih, String.intercalate_cons_cons]

theorem Config.listProblem?_eq_some_iff {ps : List Preference} {e : ConfigError} :
    listProblem? ps = some e ↔ Defect ps e := by
  rw [listProblem?]
  by_cases hnil : ps = []
  · rw [if_pos (by simp [hnil]), Option.some.injEq]
    constructor
    · rintro rfl
      exact .empty hnil
    · intro h
      cases h with
      | empty _ => rfl
      | mixed hlen _ => simp [hnil] at hlen
      | repeated _ hi _ => simpa [hnil] using hi.1.two_le_length
  · rw [if_neg (by simpa using hnil)]
    by_cases hmixed : 1 < ps.length ∧ .none ∈ ps
    · rw [if_pos hmixed, Preference.names, Text.join_eq_intercalate, Option.some.injEq]
      constructor
      · rintro rfl
        exact .mixed hmixed.1 hmixed.2
      · intro h
        cases h with
        | empty h => exact absurd h hnil
        | mixed _ _ => rfl
        | repeated hno _ _ => exact absurd hmixed hno
    · rw [if_neg hmixed, Option.map_eq_some_iff]
      constructor
      · rintro ⟨p, hp, rfl⟩
        obtain ⟨i, hi, hp⟩ := firstRepeated?_nil_eq_some_iff.mp hp
        exact .repeated hmixed hi hp
      · intro h
        cases h with
        | empty h => exact absurd h hnil
        | mixed hlen hnone => exact absurd ⟨hlen, hnone⟩ hmixed
        | repeated _ hi hp => exact ⟨_, firstRepeated?_nil_eq_some_iff.mpr ⟨_, hi, hp⟩, rfl⟩

theorem Config.validate_eq_error_iff {c : Config} {e : ConfigError} :
    c.validate = .error e ↔ Defect c.preferences e := by
  rw [validate, ← listProblem?_eq_some_iff]
  cases listProblem? c.preferences <;> simp

/-- **Validation accepts the valid lists and reports the defect of any other.**  It never reports `none`
as a repeated entry, and neither the preset nor the seed takes part in it. -/
theorem Config.validation_reports_defect (c : Config) :
    (c.validate = .ok () ↔
      c.preferences ≠ [] ∧ c.preferences.Nodup ∧ (.none ∈ c.preferences → c.preferences = [.none])) ∧
    (∀ e, c.validate = .error e ↔ Defect c.preferences e) ∧
    c.validate ≠ .error (.duplicatePreference .none) ∧
    ∀ preset seed, (Config.mk preset c.preferences seed).validate = c.validate := by
  refine ⟨?_, fun e => validate_eq_error_iff, ?_, fun preset seed => rfl⟩
  · rw [validate_eq_ok_iff]
    exact ⟨fun h => ⟨h.nonempty, h.distinct, h.alone⟩, fun ⟨hne, hnd, ha⟩ => ⟨hne, ha, hnd⟩⟩
  · intro h
    cases validate_eq_error_iff.mp h with
    | repeated hmixed hi hp =>
        exact hmixed ⟨hi.1.two_le_length, List.mem_of_getElem? hp⟩

end PrefixRanking
