import PrefixRanking.Proofs.Yaml.Nodes
import PrefixRanking.Proofs.Yaml.Numeral
import PrefixRanking.Yaml.Read

/-!
# Reading plain scalars and records

What is written plain is read as the value that it stands for:

* `readNatural_toString` -- a numeral is read as its number.
* `readOptional_plain` -- a text that is neither void nor a name of nothing is not read as absent.
* `readEntries_plain` -- an entry with a known key is read as the field.
-/

namespace PrefixRanking.Yaml

variable {α β : Type} {d : Document} {path outer : Schema.Path}

/-! ## numerals -/

/-- The names of nothing are no numerals. -/
theorem isNull_toString (n : Nat) : isNull (toString n) = false := by
  cases h : isNull (toString n) with
  | false => rfl
  | true =>
      have hmem : toString n ∈ ["null", "Null", "NULL", "~"] := List.contains_iff_mem.mp h
      have hnames : ∀ s ∈ ["null", "Null", "NULL", "~"], s.toList.all Char.isDigit = false := by
        decide
      have hdigits : (toString n).toList.all Char.isDigit = true :=
        List.all_eq_true.mpr fun c hc => isDigit_of_mem_toString hc
      rw [hnames _ hmem] at hdigits
      contradiction

/-- **A numeral is read as its number.** -/
theorem readNatural_toString {n : Nat} (h : n < UInt64.size) (expected : String) :
    readNatural d path expected (.plain (toString n)) = .ok n := by
  have hn : (Scalar.natural? ⟨toString n, .plain, none⟩).filter (· < UInt64.size) = some n := by
    show (natural? (toString n).toList).filter _ = _
    rw [toList_toString, natural?_toDigits, Option.filter_some, if_pos (decide_eq_true h)]
  simp only [readNatural, Node.plain, Document.resolve, hn]

theorem readUInt64_toString (n : UInt64) (expected : String) :
    readUInt64 d path expected (.plain (toString n.toNat)) = .ok n := by
  rw [readUInt64, readNatural_toString n.toNat_lt]
  show Except.ok (UInt64.ofNat n.toNat) = _
  rw [UInt64.ofNat_toNat]

theorem readUInt32_toString (n : UInt32) (expected : String) :
    readUInt32 d path expected (.plain (toString n.toNat)) = .ok n := by
  have hlt : n.toNat < UInt32.size := n.toNat_lt
  rw [readUInt32, readNatural_toString (Nat.lt_trans hlt (by decide))]
  show (if n.toNat < UInt32.size then _ else _) = _
  rw [if_pos hlt, UInt32.ofNat_toNat]
  rfl

/-! ## optional values -/

/-- **A text that stands for something is not read as absent.** -/
theorem readOptional_plain {s : String} (hs : s.isEmpty = false) (hn : isNull s = false)
    (read : Node → Result α) :
    readOptional d outer read (.plain s) = (read (.plain s)).map some := by
  rw [readOptional, Node.plain]
  show (if (s.isEmpty || isNull s) = true then _ else _) = _
  rw [hs, hn]
  rfl

theorem readOptional_toString (read : Node → Result α) (n : Nat) :
    readOptional d outer read (.plain (toString n)) = (read (.plain (toString n))).map some :=
  readOptional_plain (isEmpty_toString n) (isNull_toString n) read

/-! ## alternatives -/

/-- A plain name is read as what it names. -/
theorem readVariant_plain {ofName? : String → Option α} {s : String} {a : α} (h : ofName? s = some a)
    (variants : List String) : readVariant d outer path variants ofName? (.plain s) = .ok a := by
  simp only [readVariant, Node.plain, Document.resolve, variantOfTag?, Option.map_none, h]

/-! ## records -/

/-- **An entry with a known key** that was not there before is read as the field. -/
theorem readEntries_plain {fields : Fields β} {seen : List String} {acc : β} {name : String}
    (hname : name ∈ fields.names) (hseen : name ∉ seen) (v : Node) (rest : List (Node × Node)) :
    readEntries d path fields seen acc ((.plain name, v) :: rest) =
      (fields.read name (.key name :: path) v acc).bind fun acc =>
        readEntries d path fields (name :: seen) acc rest := by
  rw [readEntries]
  show (Except.ok name).bind _ = _
  simp only [Except.bind, if_pos hname, if_neg hseen]
  rfl

end PrefixRanking.Yaml
