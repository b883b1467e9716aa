import Mathlib.Data.List.Forall2
import PrefixRanking.Proofs.Orientation
import PrefixRanking.Proofs.TieBreaking

/-!
# Redundant entries

An entry is redundant if its score can be read off the scores in front of it: where these tie, it ties
too.  So two keys compare alike with and without it (`Padded.lt_iff`), the same candidate leads
(`Best.Leads.position_eq_of_alike`), and nothing else about the selection changes either, as long as the
entry draws nothing and has a score where those in front of it have one
(`run_selectIndex_redundant`).

`Preference.Determines` lists which preference determines which other one; the main statement is

* `determined_entry_is_redundant` -- an entry that an earlier entry determines may be left out.
-/

namespace PrefixRanking

/-! ## keys with one score more -/

/-- Between its first `n` scores and the others, the first key has one score more, which is a function of
those in front of it. -/
def Padded (n : Nat) (f : Key → Score) (k k' : Key) : Prop :=
  ∃ u w : Key, u.length = n ∧ k = u ++ f u :: w ∧ k' = u ++ w

/-- A score that depends on those in front of it does not take part in a comparison. -/
theorem Padded.lt_iff {n : Nat} {f : Key → Score} {k k' l l' : Key} (hk : Padded n f k k')
    (hl : Padded n f l l') : k < l ↔ k' < l' := by
  obtain ⟨u, w, hu, rfl, rfl⟩ := hk
  obtain ⟨v, z, hv, rfl, rfl⟩ := hl
  have hlen : u.length = v.length := hu.trans hv.symm
  rw [append_lt_append_iff hlen, append_lt_append_iff hlen, List.cons_lt_cons_iff]
  constructor
  · rintro (huv | ⟨huv, hf | ⟨-, hw⟩⟩)
    · exact .inl huv
    · rw [huv] at hf
      exact absurd hf (lt_irrefl _)
    · exact .inr ⟨huv, hw⟩
  · rintro (huv | ⟨huv, hw⟩)
    · exact .inl huv
    · exact .inr ⟨huv, .inr ⟨by rw [huv], hw⟩⟩

/-! ## leaders -/

theorem exists_getElem?_of_forall₂ {α β : Type} {R : α → β → Prop} {as : List α} {bs : List β}
    (h : List.Forall₂ R as bs) {i : Nat} {a : α} (ha : as[i]? = some a) :
    ∃ b, bs[i]? = some b ∧ R a b := by
  obtain ⟨hi, rfl⟩ := List.getElem?_eq_some_iff.mp ha
  obtain ⟨hlen, hget⟩ := List.forall₂_iff_get.mp h
  have hi' : i < bs.length := hlen ▸ hi
  exact ⟨bs[i], List.getElem?_eq_getElem hi', hget i hi hi'⟩

section

variable {R : Key → Key → Prop} {keys keys' : List Key} {b c : Best}

/-- Where keys compare alike, no leader is behind the other. -/
theorem Best.Leads.position_le_of_alike (hR : ∀ k k' l l', R k k' → R l l' → (k < l ↔ k' < l'))
    (h : List.Forall₂ R keys keys') (hb : b.Leads keys) (hc : c.Leads keys') :
    b.position ≤ c.position := by
  by_contra hlt
  obtain ⟨k', hk', hbk⟩ := exists_getElem?_of_forall₂ h hb.key_at
  obtain ⟨k, hk, hkc⟩ := exists_getElem?_of_forall₂ (R := flip R) h.flip hc.key_at
  have hbefore : b.key < k := hb.earliest c.position (not_le.mp hlt) k hk
  have hafter : c.key ≤ k' := hc.least k' (List.mem_of_getElem? hk')
  exact absurd ((hR _ _ _ _ hbk hkc).mp hbefore) (not_lt.mpr hafter)

/-- **Keys that compare alike have their leaders at the same position.** -/
theorem Best.Leads.position_eq_of_alike (hR : ∀ k k' l l', R k k' → R l l' → (k < l ↔ k' < l'))
    (h : List.Forall₂ R keys keys') (hb : b.Leads keys) (hc : c.Leads keys') :
    b.position = c.position :=
  le_antisymm (hb.position_le_of_alike hR h hc)
    (hc.position_le_of_alike (R := flip R) (fun k' k l' l hk hl => (hR k k' l l' hk hl).symm) h.flip hb)

end

/-! ## selections with one entry more -/

section

variable {a : Analyses} {front back : List Preference} {q : Preference}

theorem count_random_insert (hq : q ≠ .random) (front back : List Preference) :
    (front ++ q :: back).count .random = (front ++ back).count .random := by
  rw [List.count_append, List.count_cons_of_ne hq, List.count_append]

/-- An entry that draws nothing, whose score is a function of those in front of it, puts that score into
each key and leaves everything else as it is. -/
theorem forall₂_padded_keysOn (hq : q ≠ .random) {f : Key → Score}
    (hf : ∀ x s t, q.scoreOn a t x = f (keyOn a x front s)) (xs : List Prefix) (s : Keystream) :
    List.Forall₂ (Padded front.length f) (keysOn a (front ++ q :: back) xs s)
      (keysOn a (front ++ back) xs s) := by
  induction xs generalizing s with
  | nil => exact .nil
  | cons x xs ih =>
      rw [keysOn, keysOn, count_random_insert hq]
      refine .cons ⟨keyOn a x front s, keyOn a x back (s.drop (front.count .random)), ?_, ?_, ?_⟩ (ih _)
      · rw [length_keyOn]
      · rw [keyOn_append, keyOn, hf x s, Preference.draws_eq_zero hq, Keystream.drop_zero]
      · rw [keyOn_append]

/-- **A redundant entry may be left out.** -/
theorem run_selectIndex_redundant (hq : q ≠ .random) (hnone : q = .none → .none ∈ front)
    (hs : (∀ p ∈ front, p.Scorable a) → q.Scorable a) {f : Key → Score}
    (hf : ∀ x s t, q.scoreOn a t x = f (keyOn a x front s)) (xs : List Prefix) (s : Keystream) :
    (selectIndex a (front ++ q :: back) xs).run s = (selectIndex a (front ++ back) xs).run s := by
  have hnone' : .none ∈ front ++ q :: back ↔ .none ∈ front ++ back := by
    rw [List.mem_append, List.mem_cons, List.mem_append]
    constructor
    · rintro (hm | hm | hm)
      · exact .inl hm
      · exact .inl (hnone hm.symm)
      · exact .inr hm
    · rintro (hm | hm)
      · exact .inl hm
      · exact .inr (.inr hm)
  by_cases hmem : .none ∈ front ++ back
  · rw [run_selectIndex_unsupported hmem, run_selectIndex_unsupported (hnone'.mpr hmem)]
  have hmem' : .none ∉ front ++ q :: back := fun hm => hmem (hnone'.mp hm)
  by_cases hxs : xs = []
  · rw [hxs, run_selectIndex_empty hmem, run_selectIndex_empty hmem']
  -- the first entry without a score, if there is one, stands in front of the redundant one or behind it
  obtain hfront | ⟨us, r, rs, rfl, hus, hr⟩ := scorable_or_first a front
  · obtain hback | ⟨us, r, rs, rfl, hus, hr⟩ := scorable_or_first a back
    · have hall : ∀ p ∈ front ++ back, p.Scorable a := List.forall_mem_append.mpr ⟨hfront, hback⟩
      have hall' : ∀ p ∈ front ++ q :: back, p.Scorable a :=
        List.forall_mem_append.mpr ⟨hfront, List.forall_mem_cons.mpr ⟨hs hfront, hback⟩⟩
      obtain ⟨b, hb, hrun⟩ := run_selectIndex_ok hall hxs s
      obtain ⟨b', hb', hrun'⟩ := run_selectIndex_ok hall' hxs s
      rw [hrun, hrun', count_random_insert hq, hb'.position_eq_of_alike (fun _ _ _ _ => Padded.lt_iff)
        (forall₂_padded_keysOn hq hf xs s) hb]
    · have hfirst : ∀ p ∈ front ++ us, p.Scorable a := List.forall_mem_append.mpr ⟨hfront, hus⟩
      have hfirst' : ∀ p ∈ front ++ q :: us, p.Scorable a :=
        List.forall_mem_append.mpr ⟨hfront, List.forall_mem_cons.mpr ⟨hs hfront, hus⟩⟩
      rw [← List.append_assoc] at hmem ⊢
      rw [← List.cons_append, ← List.append_assoc] at hmem' ⊢
      rw [run_selectIndex_missing hmem hfirst hr hxs, run_selectIndex_missing hmem' hfirst' hr hxs,
        count_random_insert hq]
  · rw [List.append_assoc, List.cons_append] at hmem hmem' ⊢
    rw [List.append_assoc, List.cons_append]
    rw [run_selectIndex_missing hmem hus hr hxs, run_selectIndex_missing hmem' hus hr hxs]

end

/-! ## which preference determines which -/

/-- The score under the first preference fixes the score under the second. -/
inductive Preference.Determines : Preference → Preference → Prop
  | same {p : Preference} (h : p ≠ .random) : Determines p p
  /-- The score for the larger measurement is an inverted score. -/
  | inverted (m : Measure) : Determines (.by m .min) (.by m .max)
  /-- Counts, and the scores of loops, can be inverted back. -/
  | restored {m : Measure} (h : m = .length ∨ m = .width ∨ m = .pivot ∨ m = .loops) :
      Determines (.by m .max) (.by m .min)
  /-- Whether a prefix can be weighed is seen from its domain score. -/
  | loops (o : Orientation) : Determines (.by .domain .min) (.by .loops o)

namespace Preference

section

variable (a : Analyses) (s t : Keystream) (x : Prefix)

/-- The scores of counts and of loops are above those that cannot be inverted back. -/
theorem inverted_scoreOn_max {m : Measure} (h : m = .length ∨ m = .width ∨ m = .pivot ∨ m = .loops) :
    ((Preference.by m .max).scoreOn a s x).inverted = (Preference.by m .min).scoreOn a t x := by
  rw [scoreOn_max a s t x m, Score.inverted_inverted_eq_iff]
  have hcount : ∀ n, -2147483647 < (Score.ofCount n).val := by
    intro n
    rw [Score.val_ofCount]
    omega
  rcases h with rfl | rfl | rfl | rfl
  · exact hcount x.pathLength.toNat
  · exact hcount x.nontrivialLength.toNat
  · exact hcount x.pivotDepth.toNat
  · rw [scoreOn_loops a t t x]
    split <;> decide

end

section

variable {p q : Preference}

theorem Determines.ne_random (h : p.Determines q) : q ≠ .random := by
  cases h with
  | same h => exact h
  | inverted m => exact nofun
  | restored h => exact nofun
  | loops o => exact nofun

theorem Determines.eq_none (h : p.Determines q) (hq : q = .none) : p = .none := by
  cases h with
  | same h => exact hq
  | inverted m => cases hq
  | restored h => cases hq
  | loops o => cases hq

/-- What is determined has a score where the other one has. -/
theorem Determines.scorable {a : Analyses} (h : p.Determines q) (hp : p.Scorable a) : q.Scorable a := by
  cases h with
  | same h => exact hp
  | inverted m => exact ⟨nofun, hp.2⟩
  | restored h => exact ⟨nofun, hp.2⟩
  | loops o => exact ⟨nofun, hp.2⟩

/-- **What is determined is a function of the score that determines it.** -/
theorem Determines.exists_eq (h : p.Determines q) (a : Analyses) :
    ∃ f : Score → Score, ∀ x s t, q.scoreOn a t x = f (p.scoreOn a s x) := by
  cases h with
  | same h => exact ⟨id, fun x s t => scoreOn_of_ne_random h a t s x⟩
  | inverted m => exact ⟨Score.inverted, fun x s t => scoreOn_max a t s x m⟩
  | restored h => exact ⟨Score.inverted, fun x s t => (inverted_scoreOn_max a s t x h).symm⟩
  | loops o =>
      cases o with
      | min => exact ⟨fun v => if v.isSentinel then .sentinel else .zero, fun x s t => scoreOn_loops a t s x⟩
      | max =>
          refine ⟨fun v => (if v.isSentinel then Score.sentinel else .zero).inverted, fun x s t => ?_⟩
          rw [scoreOn_max a t s x .loops, scoreOn_loops a s s x]

end

end Preference

/-! ## the main statement -/

/-- **An entry that an earlier entry determines may be left out**: the same candidate is selected or the
same error reported, and as many draws are made. -/
theorem determined_entry_is_redundant (s : Selector) (front middle back : List Preference)
    {p q : Preference} (h : p.Determines q) (xs : List Prefix) :
    s.run (fun a => selectIndex a (front ++ p :: middle ++ q :: back) xs) =
      s.run fun a => selectIndex a (front ++ p :: middle ++ back) xs := by
  obtain ⟨f, hf⟩ := h.exists_eq s.analyses
  have hp : p ∈ front ++ p :: middle := by simp
  have hkey : ∀ x t u, q.scoreOn s.analyses u x =
      f (((keyOn s.analyses x (front ++ p :: middle) t)[front.length]?).getD .sentinel) := by
    intro x t u
    rw [getElem?_keyOn, List.getElem?_append_right (Nat.le_refl _), Nat.sub_self,
      List.getElem?_cons_zero, Option.map_some, Option.getD_some]
    exact hf x _ u
  rw [Selector.run, Selector.run,
    run_selectIndex_redundant (f := fun k => f (k[front.length]?.getD .sentinel)) h.ne_random
      (fun hq => h.eq_none hq ▸ hp) (fun hs => h.scorable (hs p hp)) hkey xs s.stream]

/-- With the loops behind the domain and a random entry between them: the last prefix wins by its draw,
with and without the loops. -/
theorem loops_redundant_behind_domain :
    let s := Selector.ofSeed
      ⟨some ⟨fun ids _ => if ids = .empty then .sentinel else .zero, fun _ => .zero, fun _ => .zero⟩, none⟩ 0
    let xs : List Prefix :=
      [⟨1, 1, 0, .ofList ["b"]⟩, ⟨1, 1, 0, .empty⟩, ⟨1, 1, 0, .ofList ["c", "b"]⟩, ⟨2, 1, 0, .ofList ["c"]⟩]
    Preference.Determines (.by .domain .min) (.by .loops .max) ∧
      (s.run fun a => selectIndex a [.by .domain .min, .random, .by .loops .max, .by .length .min] xs).1 =
        .ok 3 ∧
      s.run (fun a => selectIndex a ([] ++ .by .domain .min :: [.random] ++ .by .loops .max ::
        [.by .length .min]) xs) =
        s.run fun a => selectIndex a ([] ++ .by .domain .min :: [.random] ++ [.by .length .min]) xs := by
  intro s xs
  have h : Preference.Determines (.by .domain .min) (.by .loops .max) := .loops .max
  exact ⟨h, by decide +kernel, determined_entry_is_redundant s [] [.random] [.by .length .min] h xs⟩

end PrefixRanking
