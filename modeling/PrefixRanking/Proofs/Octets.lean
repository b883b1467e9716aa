import Mathlib.Data.List.Lex
import Mathlib.Data.String.Basic
import Mathlib.Tactic.SplitIfs

/-!
# The order of texts in UTF-8

Texts are compared by code points, and UTF-8 keeps that order: of two characters the smaller one has the
smaller octets, whatever stands behind them (`utf8EncodeChar_append_lt`), so texts are in the same order as
their octets (`octets_lt_iff`).
-/

namespace PrefixRanking.Text

/-- The octets of a text in UTF-8. -/
def octets (s : String) : List UInt8 := s.toUTF8.data.toList

/-- The octets of a text are those of its characters, one after another. -/
theorem octets_eq_flatMap (s : String) : octets s = s.toList.flatMap String.utf8EncodeChar := by
  have h : s.toUTF8 = (String.ofList s.toList).toByteArray := by rw [String.ofList_toList]; rfl
  rw [octets, h, String.toByteArray_ofList, List.utf8Encode, List.toList_data_toByteArray]

/-! ## single characters -/

theorem toNat_octet {n : Nat} (h : n < 256) : (UInt8.ofNat n).toNat = n := by
  rw [UInt8.toNat_ofNat', Nat.mod_eq_of_lt h]

/-- The order of numbers by their last digit to the base 64 and what is in front of it. -/
theorem digit_lt {m n : Nat} (h : m < n) : m / 64 < n / 64 ∨ m / 64 = n / 64 ∧ m % 64 < n % 64 := by
  omega

/-- The smaller character has the smaller octets. -/
theorem utf8EncodeChar_append_lt {c d : Char} (h : c < d) (k l : List UInt8) :
    String.utf8EncodeChar c ++ k < String.utf8EncodeChar d ++ l := by
  have hlt : c.val.toNat < d.val.toNat := h
  have hle : d.val.toNat ≤ 0x10FFFF := by rcases d.valid with h | ⟨_, h⟩ <;> omega
  simp only [String.utf8EncodeChar]
  generalize c.val.toNat = m at *
  generalize d.val.toNat = n at *
  have hm : m / 4096 = m / 64 / 64 ∧ m / 262144 = m / 64 / 64 / 64 := by omega
  have hn : n / 4096 = n / 64 / 64 ∧ n / 262144 = n / 64 / 64 / 64 := by omega
  rw [hm.1, hm.2, hn.1, hn.2]
  -- behind the leading octet the digits to the base 64 stand from the highest to the lowest
  have hlast := digit_lt hlt
  have hthird : m / 64 < n / 64 → _ := digit_lt
  have hsecond : m / 64 / 64 < n / 64 / 64 → _ := digit_lt
  -- with more octets the leading one is greater, so only encodings of one length need their digits
  split_ifs <;>
    simp (disch := omega) only [List.cons_append, List.nil_append, List.cons_lt_cons_iff,
      UInt8.lt_iff_toNat_lt, ← UInt8.toNat_inj, toNat_octet, Nat.mod_eq_of_lt] <;>
    omega

/-! ## texts -/

theorem flatMap_utf8EncodeChar_lt {cs ds : List Char} (h : cs < ds) :
    cs.flatMap String.utf8EncodeChar < ds.flatMap String.utf8EncodeChar := by
  induction cs generalizing ds with
  | nil =>
      cases ds with
      | nil => simp at h
      | cons d ds =>
          rw [List.flatMap_nil, List.flatMap_cons]
          cases hd : String.utf8EncodeChar d with
          | nil => exact absurd hd String.utf8EncodeChar_ne_nil
          | cons b bs => exact List.nil_lt_cons b _
  | cons c cs ih =>
      cases ds with
      | nil => simp at h
      | cons d ds =>
          rw [List.flatMap_cons, List.flatMap_cons]
          rcases List.cons_lt_cons_iff.mp h with hcd | ⟨rfl, hrest⟩
          · exact utf8EncodeChar_append_lt hcd _ _
          · exact List.append_left_lt (ih hrest)

theorem octets_lt_of_lt {s t : String} (h : s < t) : octets s < octets t := by
  rw [octets_eq_flatMap, octets_eq_flatMap]
  exact flatMap_utf8EncodeChar_lt (String.lt_iff_toList_lt.mp h)

/-- **UTF-8 keeps the order of texts.** -/
theorem octets_lt_iff {s t : String} : octets s < octets t ↔ s < t := by
  constructor
  · intro h
    rcases lt_trichotomy s t with hlt | rfl | hgt
    · exact hlt
    · exact absurd h (List.lt_irrefl _)
    · exact absurd h (List.lt_asymm (octets_lt_of_lt hgt))
  · exact octets_lt_of_lt

end PrefixRanking.Text
