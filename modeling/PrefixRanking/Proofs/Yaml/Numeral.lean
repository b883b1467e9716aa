import PrefixRanking.Proofs.Yaml.Scalar

/-!
# Decimal numerals as YAML scalars

The decimal digits of a number have no padding, so they are read back as the number
(`natural?_toDigits`), and they can be written plain (`plainable_toDigits`).
-/

namespace PrefixRanking.Yaml

/-- Only the numeral of zero starts with a zero. -/
theorem eq_nil_of_toDigits_eq_cons {n : Nat} {ds : List Char} (h : Nat.toDigits 10 n = '0' :: ds) :
    ds = [] := by
  induction n using Nat.strongRecOn generalizing ds with
  | ind n ih =>
      by_cases hn : n < 10
      · rw [Nat.toDigits_of_lt_base hn, List.cons.injEq] at h
        exact h.2.symm
      · have hquot := Nat.toDigits_of_base_le (b := 10) (by decide) (Nat.le_of_not_lt hn)
        cases hq : Nat.toDigits 10 (n / 10) with
        | nil => exact absurd hq Nat.toDigits_ne_nil
        | cons d ds' =>
            -- the digits in front of the last one start with the same zero, so they stand for zero
            rw [hquot, hq, List.cons_append, List.cons.injEq] at h
            rw [h.1] at hq
            have hzero := Nat.ofDigitChars_ten_toDigits (n := n / 10)
            rw [hq, ih (n / 10) (by omega) hq] at hzero
            have hsmall : n / 10 = 0 := hzero.symm
            omega

/-- Digits from one on are read as the number that they are appended to. -/
theorem foldl_digit? {ds : List Char} (h : ∀ c ∈ ds, c.isDigit = true) (n : Nat) :
    ds.foldl (fun n c => n.bind fun n => (digit? 10 c).map (10 * n + ·)) (some n) =
      some (Nat.ofDigitChars 10 ds n) := by
  induction ds generalizing n with
  | nil => rfl
  | cons c ds ih =>
      have hc := h c List.mem_cons_self
      have hlt : c.toNat - 48 < 10 := by
        simp only [Char.isDigit, Bool.and_eq_true, decide_eq_true_eq] at hc
        have h₂ : c.toNat ≤ 57 := hc.2
        omega
      have hdigit : digit? 10 c = some (c.toNat - 48) := by
        simp [digit?, hc, hlt]
      rw [List.foldl_cons, Option.bind_some, hdigit, Option.map_some,
        ih fun d hd => h d (List.mem_cons_of_mem c hd), Nat.ofDigitChars_cons]
      rfl

theorem isDigit_of_mem_toDigits {n : Nat} {c : Char} (h : c ∈ Nat.toDigits 10 n) :
    c.isDigit = true :=
  Nat.isDigit_of_mem_toDigits (by decide) (by decide) h

/-- The magnitude of digits without padding. -/
theorem magnitude?_of_digits {d : Char} {ds : List Char} (hd : d.isDigit = true)
    (hz : d = '0' → ds = []) : magnitude? (d :: ds) = digits? 10 (d :: ds) := by
  by_cases h : d = '0'
  · subst h
    rw [hz rfl]
    rfl
  · have hminus : d ≠ '-' := by rintro rfl; contradiction
    have hplus : d ≠ '+' := by rintro rfl; contradiction
    simp [magnitude?, isZeroPadded, h, hminus, hplus]

/-- **A numeral is read back.** -/
theorem natural?_toDigits (n : Nat) : natural? (Nat.toDigits 10 n) = some n := by
  have hdigits : ∀ c ∈ Nat.toDigits 10 n, c.isDigit = true := fun c => isDigit_of_mem_toDigits
  have hvalue : digits? 10 (Nat.toDigits 10 n) = some n := by
    rw [digits?, if_neg (by simp), foldl_digit? hdigits, Nat.ofDigitChars_ten_toDigits]
  cases hn : Nat.toDigits 10 n with
  | nil => exact absurd hn Nat.toDigits_ne_nil
  | cons d ds =>
      rw [hn] at hdigits hvalue
      have hd := hdigits d List.mem_cons_self
      have hplus : d ≠ '+' := by rintro rfl; contradiction
      have hzero : d = '0' → ds = [] := by
        rintro rfl
        exact eq_nil_of_toDigits_eq_cons hn
      simp [natural?, hplus, magnitude?_of_digits hd hzero, hvalue]

/-! ## written plain -/

/-- There is no indicator where there is neither a colon nor a number sign. -/
theorem hasIndicator_eq_false {cs : List Char} (h : ∀ c ∈ cs, c ≠ ':' ∧ c ≠ '#') :
    hasIndicator cs = false := by
  induction cs with
  | nil => rfl
  | cons c cs ih =>
      cases cs with
      | nil => rfl
      | cons d cs =>
          have hd := h d (List.mem_cons_of_mem c List.mem_cons_self)
          rw [hasIndicator, ih fun e he => h e (List.mem_cons_of_mem c he)]
          simp [hd]

/-- A digit is not in a list of other characters. -/
theorem contains_eq_false_of_isDigit {d : Char} (hd : d.isDigit = true) {cs : List Char}
    (h : cs.all (fun c => !c.isDigit) = true) : cs.contains d = false := by
  rw [List.contains_eq_mem, decide_eq_false_iff_not]
  intro hmem
  have hnot := List.all_eq_true.mp h d hmem
  rw [hd] at hnot
  contradiction

theorem isWord_of_isDigit {c : Char} (h : c.isDigit = true) : isWord c = true := by
  simp [isWord, Char.isAlphanum, h]

theorem isWritable_of_isDigit {c : Char} (h : c.isDigit = true) :
    isWritable c = true ∧ isBreak c = false := by
  simp only [Char.isDigit, Bool.and_eq_true, decide_eq_true_eq] at h
  have hlow : 48 ≤ c.toNat := h.1
  have hhigh : c.toNat ≤ 57 := h.2
  exact isWritable_of_printable ⟨by omega, by omega⟩

theorem not_startsWithIndicator_of_digit {d : Char} (hd : d.isDigit = true) (ds : List Char) :
    startsWithIndicator (d :: ds) = false := by
  have hne : ∀ {e : Char}, e.isDigit = false → d ≠ e := by
    rintro e he rfl
    rw [hd] at he
    contradiction
  rw [startsWithIndicator, contains_eq_false_of_isDigit hd (by decide)]
  simp [hne (e := '?') rfl, hne (e := ':') rfl, hne (e := '-') rfl, hne (e := '.') rfl]

/-- **A numeral can be written plain.** -/
theorem plainable_toDigits (n : Nat) : plainable (Nat.toDigits 10 n) = true := by
  have hne : ∀ {d : Char}, isWord d = false → ∀ c ∈ Nat.toDigits 10 n, c ≠ d :=
    fun hd c hc => ne_of_isWord (isWord_of_isDigit (isDigit_of_mem_toDigits hc)) hd
  have hall : ∀ c ∈ Nat.toDigits 10 n, isWritable c = true ∧ isBreak c = false :=
    fun c hc => isWritable_of_isDigit (isDigit_of_mem_toDigits hc)
  have hmark := hasIndicator_eq_false fun c hc => ⟨hne (d := ':') rfl c hc, hne (d := '#') rfl c hc⟩
  have hlast : (Nat.toDigits 10 n).getLast? ≠ some ' ' :=
    fun h => hne (d := ' ') rfl ' ' (List.mem_of_getLast? h) rfl
  have hhead : (Nat.toDigits 10 n).head? ≠ some ' ' :=
    fun h => hne (d := ' ') rfl ' ' (List.mem_of_head? h) rfl
  have hstart : startsWithIndicator (Nat.toDigits 10 n) = false := by
    cases hn : Nat.toDigits 10 n with
    | nil => rfl
    | cons d ds =>
        refine not_startsWithIndicator_of_digit (isDigit_of_mem_toDigits (n := n) ?_) ds
        rw [hn]
        exact List.mem_cons_self
  simp only [plainable, hmark, hstart, Bool.and_eq_true, List.all_eq_true, Bool.not_eq_true', bne_iff_ne]
  exact ⟨⟨⟨⟨⟨by simp, hall⟩, hhead⟩, hlast⟩, trivial⟩, trivial⟩

/-! ## as strings -/

theorem toList_toString (n : Nat) : (toString n).toList = Nat.toDigits 10 n := by
  rw [Nat.toString_eq_repr, Nat.toList_repr]

theorem plainable_toString (n : Nat) : plainable (toString n).toList = true := by
  rw [toList_toString]
  exact plainable_toDigits n

theorem isDigit_of_mem_toString {n : Nat} {c : Char} (h : c ∈ (toString n).toList) :
    c.isDigit = true := by
  rw [toList_toString] at h
  exact isDigit_of_mem_toDigits h

theorem isEmpty_toString (n : Nat) : (toString n).isEmpty = false := by
  rw [← Bool.not_eq_true, String.isEmpty_iff, ← String.toList_inj, toList_toString]
  exact Nat.toDigits_ne_nil

end PrefixRanking.Yaml
