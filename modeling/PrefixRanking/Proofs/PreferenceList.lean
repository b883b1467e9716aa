import Mathlib
import PrefixRanking.Proofs.Text
import PrefixRanking.Proofs.Validation

/-!
# Lists of names

Which texts are read as a list of preferences.  A piece of text names a preference exactly if it is a
spelling of the name, in any case of ASCII letters, with blank characters around it
(`Preference.parse_eq_ok_iff`).  Pieces are read one by one up to the first that names nothing
(`Preference.parseEach_eq_ok_iff`, `Preference.parseEach_eq_error_iff`), and a text of spellings with
commas between them is read as their list (`Preference.parseList_intercalate`).  The main statement is

* `preferenceList_grammar` -- the texts that are read, the error of any other, and the lists that come
  back when their names are joined.
-/

namespace PrefixRanking

/-! ## letter case -/

namespace Text

/-- The same text but for the case of ASCII letters. -/
def SameLetters (s t : String) : Prop := lowerAscii s = lowerAscii t

theorem lowerAscii_upperAscii (s : String) : lowerAscii (upperAscii s) = lowerAscii s := by
  rw [lowerAscii, upperAscii, String.toList_ofList, List.map_map, lowerAscii]
  congr 1
  exact List.map_congr_left fun c _ => c.toLower_toUpper_eq_toLower

theorem upperAscii_lowerAscii (s : String) : upperAscii (lowerAscii s) = upperAscii s := by
  rw [upperAscii, lowerAscii, String.toList_ofList, List.map_map, upperAscii]
  congr 1
  exact List.map_congr_left fun c _ => c.toUpper_toLower_eq_toUpper

/-- Texts with the same small letters are those with the same capital letters. -/
theorem upperAscii_eq_iff {s t : String} : upperAscii s = upperAscii t ↔ SameLetters s t := by
  rw [SameLetters]
  constructor
  · intro h
    rw [← lowerAscii_upperAscii s, h, lowerAscii_upperAscii]
  · intro h
    rw [← upperAscii_lowerAscii s, h, upperAscii_lowerAscii]

end Text

namespace Preference

/-! ## one name -/

/-- The text is the name of the preference, but for blank characters around it and the case of ASCII
letters. -/
def Spells (s : String) (p : Preference) : Prop :=
  ∃ before name after, s = before ++ name ++ after ∧
    (∀ c ∈ before.toList, Text.isBlank c = true) ∧ (∀ c ∈ after.toList, Text.isBlank c = true) ∧
      Text.SameLetters name p.name

/-- Names are written in capital letters. -/
theorem upperAscii_name (p : Preference) : Text.upperAscii p.name = p.name := by
  cases p with
  | «by» m o => cases m <;> cases o <;> decide
  | random => decide
  | none => decide

/-- Names have no blank characters and no commas in them, whatever the case of their letters. -/
theorem toLower_of_mem_name {p : Preference} {c : Char} (hc : c ∈ p.name.toList) :
    Text.isBlank c.toLower = false ∧ c.toLower ≠ ',' := by
  have hall : p.name.toList.all (fun c => !Text.isBlank c.toLower && c.toLower != ',') = true := by
    cases p with
    | «by» m o => cases m <;> cases o <;> decide
    | random => decide
    | none => decide
  simpa using List.all_eq_true.mp hall c hc

theorem name_ne_empty (p : Preference) : p.name ≠ "" := by
  cases p with
  | «by» m o => cases m <;> cases o <;> decide
  | random => decide
  | none => decide

section

variable {p : Preference} {name : String}

theorem chars_of_sameLetters (h : Text.SameLetters name p.name) {c : Char} (hc : c ∈ name.toList) :
    Text.isBlank c = false ∧ c ≠ ',' := by
  have hlower : c.toLower ∈ (Text.lowerAscii p.name).toList := by
    rw [← h, Text.lowerAscii, String.toList_ofList]
    exact List.mem_map_of_mem hc
  rw [Text.lowerAscii, String.toList_ofList, List.mem_map] at hlower
  obtain ⟨d, hd, hdc⟩ := hlower
  obtain ⟨hblank, hcomma⟩ := toLower_of_mem_name hd
  rw [hdc] at hblank hcomma
  constructor
  · by_contra hc'
    rw [Bool.not_eq_false] at hc'
    rw [Text.toLower_of_isBlank hc', hc'] at hblank
    contradiction
  · rintro rfl
    exact hcomma rfl

theorem ne_nil_of_sameLetters (h : Text.SameLetters name p.name) : name.toList ≠ [] := by
  intro hnil
  rw [Text.SameLetters, Text.lowerAscii, Text.lowerAscii, hnil, ← String.toList_inj,
    String.toList_ofList, String.toList_ofList, List.map_nil, eq_comm, List.map_eq_nil_iff,
    String.toList_eq_nil_iff] at h
  exact name_ne_empty p h

end

section

variable {p : Preference} {s : String}

theorem spells_iff : Spells s p ↔ Text.SameLetters (Text.trim s) p.name := by
  constructor
  · rintro ⟨before, name, after, rfl, hb, ha, hname⟩
    have htrim : Text.TrimsTo (before ++ name ++ after) name :=
      ⟨⟨before.toList, after.toList, by simp, hb, ha⟩,
        Text.trimmed_of_forall fun c hc => (chars_of_sameLetters hname hc).1⟩
    rw [← Text.trimsTo_iff.mp htrim]
    exact hname
  · intro h
    obtain ⟨before, after, hs, hb, ha⟩ := (Text.trimsTo_iff (s := s)).mpr rfl |>.cut
    refine ⟨String.ofList before, Text.trim s, String.ofList after, ?_, ?_, ?_, h⟩
    · rw [← String.toList_inj, hs]
      simp
    · rwa [String.toList_ofList]
    · rwa [String.toList_ofList]

/-- **A piece of text names one preference at most, and reading finds it.** -/
theorem parse_eq_ok_iff : parse s = .ok p ↔ Spells s p := by
  rw [spells_iff, ← Text.upperAscii_eq_iff, upperAscii_name, parse]
  constructor
  · intro h
    cases hf : ofName? (Text.upperAscii (Text.trim s)) with
    | none => rw [hf] at h; contradiction
    | some q =>
        rw [hf] at h
        cases h
        exact (name_of_ofName? hf).symm
  · intro h
    rw [h, ofName?_name]

theorem parse_eq_error_iff {e : ParseError} :
    parse s = .error e ↔ (∀ p, ¬ Spells s p) ∧ Text.TrimsTo s e.input := by
  rw [Text.trimsTo_iff]
  simp only [← parse_eq_ok_iff, parse]
  cases ofName? (Text.upperAscii (Text.trim s)) with
  | none =>
      cases e
      simp [eq_comm]
  | some p => simp

theorem Spells.exists_not_blank (h : Spells s p) : ∃ c ∈ s.toList, Text.isBlank c = false := by
  obtain ⟨before, name, after, rfl, -, -, hname⟩ := h
  obtain ⟨c, hc⟩ := List.exists_mem_of_ne_nil _ (ne_nil_of_sameLetters hname)
  exact ⟨c, by simp [hc], (chars_of_sameLetters hname hc).1⟩

theorem Spells.comma_not_mem (h : Spells s p) : ',' ∉ s.toList := by
  obtain ⟨before, name, after, rfl, hb, ha, hname⟩ := h
  rw [String.toList_append, String.toList_append, List.mem_append, List.mem_append]
  rintro ((hc | hc) | hc)
  · exact absurd (hb _ hc) (by decide)
  · exact (chars_of_sameLetters hname hc).2 rfl
  · exact absurd (ha _ hc) (by decide)

end

/-! ## pieces -/

theorem parseEach_cons (s : String) (pieces : List String) :
    parseEach (s :: pieces) = match parse s, parseEach pieces with
      | .error e, _ => .error e
      | .ok _, .error e => .error e
      | .ok p, .ok ps => .ok (p :: ps) := by
  rw [parseEach]
  cases parse s with
  | error e => rfl
  | ok p => cases parseEach pieces <;> rfl

theorem parseEach_eq_ok_iff {pieces : List String} {ps : List Preference} :
    parseEach pieces = .ok ps ↔ List.Forall₂ Spells pieces ps := by
  induction pieces generalizing ps with
  | nil =>
      rw [List.forall₂_nil_left_iff, parseEach, Except.ok.injEq, eq_comm]
  | cons s pieces ih =>
      simp only [List.forall₂_cons_left_iff, ← ih]
      simp only [← parse_eq_ok_iff, parseEach_cons]
      cases parse s with
      | error e => simp
      | ok p => cases parseEach pieces <;> simp [eq_comm]

/-- The first piece that names nothing, without the blank characters at its ends. -/
def FirstUnknown (pieces : List String) (input : String) : Prop :=
  ∃ before piece after, pieces = before ++ piece :: after ∧
    (∀ s ∈ before, ∃ p, Spells s p) ∧ (∀ p, ¬ Spells piece p) ∧
      Text.TrimsTo piece input

theorem firstUnknown_cons {s : String} {pieces : List String} {input : String} :
    FirstUnknown (s :: pieces) input ↔
      (∀ p, ¬ Spells s p) ∧ Text.TrimsTo s input ∨
        (∃ p, Spells s p) ∧ FirstUnknown pieces input := by
  constructor
  · rintro ⟨before, piece, after, he, hbefore, hpiece, htrim⟩
    cases before with
    | nil =>
        cases he
        exact .inl ⟨hpiece, htrim⟩
    | cons t before =>
        cases he
        exact .inr ⟨hbefore s List.mem_cons_self,
          before, piece, after, rfl, fun u hu => hbefore u (List.mem_cons_of_mem s hu), hpiece, htrim⟩
  · rintro (⟨hs, htrim⟩ | ⟨hs, before, piece, after, rfl, hbefore, hpiece, htrim⟩)
    · exact ⟨[], s, pieces, rfl, List.forall_mem_nil _, hs, htrim⟩
    · exact ⟨s :: before, piece, after, rfl, List.forall_mem_cons.mpr ⟨hs, hbefore⟩, hpiece, htrim⟩

theorem parseEach_eq_error_iff {pieces : List String} {e : ParseError} :
    parseEach pieces = .error e ↔ FirstUnknown pieces e.input := by
  induction pieces with
  | nil => simp [parseEach, FirstUnknown]
  | cons s pieces ih =>
      rw [firstUnknown_cons, ← ih, ← parse_eq_error_iff, parseEach_cons]
      simp only [← parse_eq_ok_iff]
      cases parse s with
      | error e' => simp
      | ok p => cases parseEach pieces <;> simp

/-! ## lists -/

theorem parseList_of_blank {s : String} (h : ∀ c ∈ s.toList, Text.isBlank c = true) :
    parseList s = .ok [] := by
  rw [parseList, if_pos]
  exact List.all_eq_true.mpr h

theorem parseList_of_not_blank {s : String} {c : Char} (hc : c ∈ s.toList)
    (hblank : Text.isBlank c = false) : parseList s = parseEach (Text.split ',' s) := by
  rw [parseList, if_neg]
  intro hall
  rw [List.all_eq_true.mp hall c hc] at hblank
  contradiction

theorem comma_not_mem_of_forall₂ {written : List String} {ps : List Preference}
    (h : List.Forall₂ Spells written ps) : ∀ s ∈ written, ',' ∉ s.toList := by
  induction h with
  | nil => exact List.forall_mem_nil _
  | cons hp _ ih => exact List.forall_mem_cons.mpr ⟨hp.comma_not_mem, ih⟩

/-- **Spellings with commas between them are read as their list.** -/
theorem parseList_intercalate {written : List String} {ps : List Preference}
    (h : List.Forall₂ Spells written ps) :
    parseList (",".intercalate written) = .ok ps := by
  cases h with
  | nil => exact parseList_of_blank (by simp)
  | @cons s p written ps hp hps =>
      have hsplit : Text.IsSplit ',' (",".intercalate (s :: written)) (s :: written) :=
        ⟨rfl, comma_not_mem_of_forall₂ (.cons hp hps), List.cons_ne_nil s written⟩
      obtain ⟨c, hc, hblank⟩ := hp.exists_not_blank
      have hmem : c ∈ (",".intercalate (s :: written)).toList := by
        cases written <;> simp [hc]
      rw [parseList_of_not_blank hmem hblank, ← Text.isSplit_iff.mp hsplit]
      exact parseEach_eq_ok_iff.mpr (.cons hp hps)

theorem spells_of_blank (before : String) (h : ∀ c ∈ before.toList, Text.isBlank c = true)
    (p : Preference) : Spells (before ++ p.name) p :=
  ⟨before, p.name, "", by simp, h, by simp, rfl⟩

/-- A blank behind a comma belongs to the next piece. -/
theorem intercalate_blank (s : String) (l : List String) :
    ", ".intercalate (s :: l) = ",".intercalate (s :: l.map (" " ++ ·)) := by
  induction l generalizing s with
  | nil => simp
  | cons t l ih =>
      rw [String.intercalate_cons_cons, ih, List.map_cons, String.intercalate_cons_cons,
        String.intercalate_cons_append]
      simp only [String.append_assoc]
      rfl

/-- The names of a list, joined by commas and blanks, are read as the list. -/
theorem parseList_names (ps : List Preference) : parseList (", ".intercalate (ps.map name)) = .ok ps := by
  cases ps with
  | nil => exact parseList_of_blank (by simp)
  | cons p ps =>
      rw [List.map_cons, intercalate_blank, List.map_map]
      refine parseList_intercalate (.cons ?_ ?_)
      · exact spells_of_blank "" (by simp) p
      · rw [List.forall₂_map_left_iff, List.forall₂_same]
        exact fun q _ => spells_of_blank " " (by simp [Text.isBlank]) q

end Preference

/-! ## the main statement -/

/-- **The grammar of lists**: a text of blank characters is the empty list.  Any other text is divided at
its commas; it is read exactly if every piece names a preference, as the list of these, and else the
error holds the first piece that names none, without the blank characters around it and with its letters
as they are.  So a list comes back from its names with commas between them, whatever their case and the
blank characters around them, and also from the text of the error about `none` beside other entries. -/
theorem preferenceList_grammar :
    (∀ s : String, (∀ c ∈ s.toList, Text.isBlank c = true) → Preference.parseList s = .ok []) ∧
    (∀ s : String, (∃ c ∈ s.toList, Text.isBlank c = false) →
      ∃ pieces, Text.IsSplit ',' s pieces ∧ pieces.length = s.toList.count ',' + 1 ∧
        (∀ ps, Preference.parseList s = .ok ps ↔
          List.Forall₂ Preference.Spells pieces ps) ∧
        ∀ input, Preference.parseList s = .error ⟨input⟩ ↔ Preference.FirstUnknown pieces input) ∧
    (∀ (written : List String) (ps : List Preference),
      List.Forall₂ Preference.Spells written ps →
        Preference.parseList (",".intercalate written) = .ok ps) ∧
    ∀ (c : Config) (text : String), c.validate = .error (.noneMixedWithHeuristics text) →
      Preference.parseList text = .ok c.preferences := by
  refine ⟨fun s => Preference.parseList_of_blank, ?_, fun written ps => Preference.parseList_intercalate,
    ?_⟩
  · rintro s ⟨c, hc, hblank⟩
    refine ⟨Text.split ',' s, Text.isSplit_iff.mpr rfl, Text.length_split ',' s, fun ps => ?_,
      fun input => ?_⟩
    · rw [Preference.parseList_of_not_blank hc hblank, Preference.parseEach_eq_ok_iff]
    · rw [Preference.parseList_of_not_blank hc hblank, Preference.parseEach_eq_error_iff]
  · intro c text h
    cases Config.validate_eq_error_iff.mp h with
    | mixed _ _ => exact Preference.parseList_names c.preferences

/-- Commas alone are no blank text: there is a piece on either side. -/
example : Preference.parseList " random,\tWidth_max ,," = .error ⟨""⟩ := by decide +kernel

end PrefixRanking
