import Mathlib.Data.List.Basic
import Mathlib.Data.List.TakeWhile
import PrefixRanking.Text.Lowercase

/-!
# Trimming and splitting

What the functions on texts compute, said without them.

* `TrimsTo s t` -- `t` is `s` without the blank characters at its ends, and this is what `trim` gives
  (`trimsTo_iff`);
* `IsSplit sep s pieces` -- the pieces, joined by the separator, are the text, and no piece has the
  separator in it; this is what `split` gives (`isSplit_iff`).
-/

namespace PrefixRanking.Text

/-! ## trimming -/

/-- There is no blank character at either end. -/
structure Trimmed (cs : List Char) : Prop where
  front : ∀ c, cs.head? = some c → isBlank c = false
  back : ∀ c, cs.getLast? = some c → isBlank c = false

theorem trimmed_of_forall {cs : List Char} (h : ∀ c ∈ cs, isBlank c = false) : Trimmed cs where
  front c hc := h c (List.mem_of_head? hc)
  back c hc := h c (List.mem_of_getLast? hc)

/-- Nothing but blank characters is cut off. -/
theorem exists_eq_append_trimChars (cs : List Char) :
    ∃ before after, cs = before ++ trimChars cs ++ after ∧
      (∀ c ∈ before, isBlank c = true) ∧ ∀ c ∈ after, isBlank c = true := by
  refine ⟨cs.takeWhile isBlank, ((cs.dropWhile isBlank).reverse.takeWhile isBlank).reverse, ?_,
    fun c hc => List.mem_takeWhile_imp hc, fun c hc => List.mem_takeWhile_imp (List.mem_reverse.mp hc)⟩
  rw [trimChars, List.append_assoc, ← List.reverse_append, List.takeWhile_append_dropWhile,
    List.reverse_reverse, List.takeWhile_append_dropWhile]

/-- Dropping blank characters ends at one that is not blank. -/
theorem not_isBlank_of_head?_dropWhile {cs : List Char} {c : Char}
    (h : (cs.dropWhile isBlank).head? = some c) : isBlank c = false := by
  have hnot := List.head?_dropWhile_not isBlank cs
  rw [h] at hnot
  exact hnot

theorem trimmed_trimChars (cs : List Char) : Trimmed (trimChars cs) where
  front c hc := by
    -- what is left at the front stays there when the back is cut
    have hback : cs.dropWhile isBlank =
        trimChars cs ++ ((cs.dropWhile isBlank).reverse.takeWhile isBlank).reverse := by
      rw [trimChars, ← List.reverse_append, List.takeWhile_append_dropWhile, List.reverse_reverse]
    refine @not_isBlank_of_head?_dropWhile cs c ?_
    rw [hback, List.head?_append, hc, Option.some_or]
  back c hc := by
    rw [trimChars, List.getLast?_reverse] at hc
    exact not_isBlank_of_head?_dropWhile hc

/-- All blank characters around a trimmed text are cut off. -/
theorem trimChars_append {before mid after : List Char} (hb : ∀ c ∈ before, isBlank c = true)
    (hm : Trimmed mid) (ha : ∀ c ∈ after, isBlank c = true) :
    trimChars (before ++ mid ++ after) = mid := by
  rw [trimChars, List.append_assoc, List.dropWhile_append_of_pos hb]
  cases mid with
  | nil =>
      rw [List.nil_append, List.dropWhile_eq_nil_iff.mpr ha]
      rfl
  | cons c mid =>
      rw [List.cons_append, List.dropWhile_cons_of_neg (by simp [hm.front c rfl]), ← List.cons_append,
        List.reverse_append, List.dropWhile_append_of_pos fun d hd => ha d (List.mem_reverse.mp hd)]
      cases hr : (c :: mid).reverse with
      | nil => simp at hr
      | cons d rest =>
          have hd : isBlank d = false :=
            hm.back d (by rw [List.getLast?_eq_head?_reverse, hr]; rfl)
          rw [List.dropWhile_cons_of_neg (by simp [hd]), ← hr, List.reverse_reverse]

/-- The second text is the first one without the blank characters at its ends. -/
structure TrimsTo (s t : String) : Prop where
  cut : ∃ before after, s.toList = before ++ t.toList ++ after ∧
    (∀ c ∈ before, isBlank c = true) ∧ ∀ c ∈ after, isBlank c = true
  trimmed : Trimmed t.toList

theorem trimsTo_iff {s t : String} : TrimsTo s t ↔ t = trim s := by
  rw [trim, ← String.toList_inj, String.toList_ofList]
  constructor
  · rintro ⟨⟨before, after, hs, hb, ha⟩, ht⟩
    rw [hs, trimChars_append hb ht ha]
  · intro h
    exact ⟨h ▸ exists_eq_append_trimChars s.toList, h ▸ trimmed_trimChars s.toList⟩

/-- Blank characters have no small letter. -/
theorem toLower_of_isBlank {c : Char} (h : isBlank c = true) : c.toLower = c := by
  refine toLower_of_not_capital fun hcapital => ?_
  simp only [isBlank, Bool.or_eq_true, Bool.and_eq_true, decide_eq_true_eq, beq_iff_eq] at h
  omega

/-! ## splitting -/

/-- The pieces of a text: joined by the separator they are the text, and they have no separator in
them. -/
structure IsSplit (sep : Char) (s : String) (pieces : List String) : Prop where
  joined : (String.singleton sep).intercalate pieces = s
  apart : ∀ piece ∈ pieces, sep ∉ piece.toList
  nonempty : pieces ≠ []

theorem splitChars_ne_nil (sep : Char) (cs : List Char) : splitChars sep cs ≠ [] := by
  rw [← List.length_pos_iff, length_splitChars]
  exact Nat.succ_pos _

theorem splitChars_eq_splitOn (sep : Char) (cs : List Char) : splitChars sep cs = cs.splitOn sep := by
  induction cs with
  | nil => rw [List.splitOn_nil]; rfl
  | cons c cs ih =>
      rw [List.splitOn_eq_splitOnP, List.splitOnP_cons_eq_if_modifyHead, ← List.splitOn_eq_splitOnP,
        ← ih, splitChars]
      by_cases hc : c = sep
      · rw [if_pos hc, if_pos (beq_iff_eq.mpr hc)]
      · rw [if_neg hc, if_neg (fun h => hc (beq_iff_eq.mp h))]
        cases hs : splitChars sep cs with
        | nil => exact absurd hs (splitChars_ne_nil sep cs)
        | cons piece pieces => rfl

theorem length_split (sep : Char) (s : String) : (split sep s).length = s.toList.count sep + 1 := by
  rw [split, List.length_map, length_splitChars]

theorem not_mem_of_mem_splitChars {sep : Char} {cs piece : List Char} (h : piece ∈ splitChars sep cs) :
    sep ∉ piece := by
  induction cs generalizing piece with
  | nil =>
      rw [splitChars, List.mem_singleton] at h
      rw [h]
      exact List.not_mem_nil
  | cons c cs ih =>
      rw [splitChars] at h
      by_cases hc : c = sep
      · rw [if_pos hc, List.mem_cons] at h
        cases h with
        | inl he => rw [he]; exact List.not_mem_nil
        | inr hm => exact ih hm
      · rw [if_neg hc] at h
        cases hs : splitChars sep cs with
        | nil => exact absurd hs (splitChars_ne_nil sep cs)
        | cons first rest =>
            rw [hs] at h ih
            cases h with
            | head =>
                rw [List.mem_cons, not_or]
                exact ⟨Ne.symm hc, ih List.mem_cons_self⟩
            | tail _ hm => exact ih (List.mem_cons_of_mem first hm)

/-- A text has one division into pieces. -/
theorem isSplit_iff {sep : Char} {s : String} {pieces : List String} :
    IsSplit sep s pieces ↔ pieces = split sep s := by
  constructor
  · rintro ⟨hs, hp, hne⟩
    rw [split, ← hs, String.toList_intercalate, String.toList_singleton, splitChars_eq_splitOn,
      List.splitOn_intercalate, List.map_map]
    · simp
    · simpa using hp
    · simpa using hne
  · rintro rfl
    refine ⟨?_, ?_, ?_⟩
    · rw [split, ← String.toList_inj, String.toList_intercalate, String.toList_singleton,
        splitChars_eq_splitOn, List.map_map]
      simp
    · intro piece hpiece
      rw [split, List.mem_map] at hpiece
      obtain ⟨cs, hcs, rfl⟩ := hpiece
      rw [String.toList_ofList]
      exact not_mem_of_mem_splitChars hcs
    · rw [split, ne_eq, List.map_eq_nil_iff]
      exact splitChars_ne_nil sep s.toList

end PrefixRanking.Text
