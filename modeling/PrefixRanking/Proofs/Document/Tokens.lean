import PrefixRanking.Config.Export
import PrefixRanking.Proofs.Yaml.Lines
import PrefixRanking.Proofs.Yaml.Numeral

/-!
# The tokens of a configuration document

The document that is written is divided into the tokens that its record stands for (`ofText_write`), if the
name of the preset is printable: it is the only text in it that is not known.  The lines are looked at
from the last one on.
-/

namespace PrefixRanking

open Yaml TokenState

namespace Export

/-! ## the preset -/

/-- Is the text in printable ASCII? -/
def IsPrintable (s : String) : Prop := ∀ c ∈ s.toList, 32 ≤ c.toNat ∧ c.toNat ≤ 126

theorem isPrintable_iff {s : String} :
    IsPrintable s ↔ (s.toList.all fun c => 32 ≤ c.toNat && c.toNat ≤ 126) = true := by
  simp [IsPrintable]

/-- How a text in printable ASCII is written. -/
def presetStyle (s : String) : Style :=
  if !isAmbiguous s.toList && plainable s.toList then .plain else .quoted

/-- There is no pair where there is nothing of one of the two kinds. -/
theorem hasPair_eq_false {p q : Char → Bool} {cs : List Char}
    (h : (∀ c ∈ cs, p c = false) ∨ ∀ c ∈ cs, q c = false) : hasPair p q cs = false := by
  induction cs with
  | nil => rfl
  | cons c cs ih =>
      have hcs : (∀ d ∈ cs, p d = false) ∨ ∀ d ∈ cs, q d = false :=
        h.imp (fun h d hd => h d (List.mem_cons_of_mem c hd)) fun h d hd => h d (List.mem_cons_of_mem c hd)
      cases cs with
      | nil => rfl
      | cons d cs =>
          have hpair : (p c && q d) = false := by
            cases h with
            | inl h => rw [h c List.mem_cons_self, Bool.false_and]
            | inr h => rw [h d (List.mem_cons_of_mem c List.mem_cons_self), Bool.and_false]
          rw [hasPair, ih hcs, hpair]
          rfl

theorem quotable_of_printable {s : String} (h : IsPrintable s) : quotable s.toList = true := by
  have hall := fun c hc => isWritable_of_printable (h c hc)
  simp only [quotable, Bool.and_eq_true, List.all_eq_true, Bool.not_eq_true']
  exact ⟨⟨fun c hc => (hall c hc).1, hasPair_eq_false (.inl fun c hc => (hall c hc).2)⟩,
    hasPair_eq_false (.inr fun c hc => (hall c hc).2)⟩

/-- A text in printable ASCII is written plain or between single quotes. -/
theorem writeString_of_printable {s : String} (h : IsPrintable s) :
    (presetStyle s = .plain ∧ plainable s.toList = true ∧ writeString s.toList = s.toList ++ ['\n']) ∨
      (presetStyle s = .quoted ∧ writeString s.toList = singleQuoted s.toList ++ ['\n']) := by
  have hfeed : ¬ s.toList.contains '\n' = true := by
    rw [List.contains_eq_mem, decide_eq_true_eq]
    exact fun hmem => absurd (h '\n' hmem) (by decide)
  rw [writeString, if_neg hfeed, presetStyle]
  by_cases hplain : (!isAmbiguous s.toList && plainable s.toList) = true
  · left
    rw [if_pos hplain, if_pos hplain]
    exact ⟨rfl, (Bool.and_eq_true_iff.mp hplain).2, rfl⟩
  · right
    rw [if_neg hplain, if_neg hplain, if_pos (quotable_of_printable h)]
    exact ⟨rfl, rfl⟩

/-- **A text in printable ASCII as a value.** -/
theorem within_writeString {s : String} (h : IsPrintable s) {rest : List Char} {ts : List Token}
    (hrest : StartsLine 0 rest) (hlines : Lines [0] rest ts) :
    Within [0] false (writeString s.toList ++ rest) (.scalar s (presetStyle s) :: ts) := by
  rcases writeString_of_printable h with ⟨hstyle, hplain, htext⟩ | ⟨hstyle, htext⟩
  · rw [hstyle, htext, List.append_assoc]
    exact Within.plain s hplain hrest (by decide) hlines
  · rw [hstyle, htext, List.append_assoc]
    exact Within.quoted s (fun c hc => isWritable_of_printable (h c hc)) (by simp)
      (Within.newLine hlines)

/-! ## tokens -/

/-- The tokens of the version. -/
def versionTokens : Option UInt32 → List Token
  | none => []
  | some v => Token.keyed "version" ++ [.scalar (toString v.toNat) .plain]

/-- The tokens of the list in the overrides. -/
def preferenceTokens : Option (List Preference) → List Token
  | none => []
  | some [] => Token.keyed "prefix_preference" ++ [.flowSequenceStart, .flowSequenceEnd]
  | some ps => Token.keyed "prefix_preference" ++ (ps.map Preference.name).flatMap Token.entry

/-- The tokens of the seed in the overrides. -/
def seedTokens : Option UInt64 → List Token
  | none => []
  | some n => Token.keyed "random_seed" ++ [.scalar (toString n.toNat) .plain]

/-- The tokens of the overrides. -/
def overrideTokens : Option Overrides → List Token
  | none => []
  | some ⟨none, none⟩ => Token.keyed "overrides" ++ [.flowMappingStart, .flowMappingEnd]
  | some o => Token.keyed "overrides" ++
      .blockMappingStart :: (preferenceTokens o.preferences ++ (seedTokens o.seed ++ [.blockEnd]))

/-- The tokens of the document. -/
def tokens (e : Export) : List Token :=
  .blockMappingStart :: (versionTokens e.version ++ (Token.keyed "preset" ++
    .scalar e.preset (presetStyle e.preset) :: (overrideTokens e.overrides ++ [.blockEnd, .streamEnd])))

/-- The tokens of overrides that are not empty. -/
theorem overrideTokens_append {o : Overrides} (h : o ≠ .empty) (ts : List Token) :
    overrideTokens (some o) ++ ts =
      Token.keyed "overrides" ++ .blockMappingStart ::
        (preferenceTokens o.preferences ++ (seedTokens o.seed ++ .blockEnd :: ts)) := by
  rw [overrideTokens]
  · simp
  · exact h

theorem writeSeed_eq (n : UInt64) : writeSeed (some n) =
    List.replicate 2 ' ' ++ ("random_seed".toList ++ ':' :: ' ' ::
      ((toString n.toNat).toList ++ ['\n'])) := by
  simp [writeSeed, line]

/-- The seed is the last line. -/
theorem lines_seed {I : List Nat} {opened : List Token} (ho : Opens 2 I [2, 0] opened) (n : UInt64) :
    Lines I (writeSeed (some n))
      (opened ++ (seedTokens (some n) ++ [.blockEnd, .blockEnd, .streamEnd])) := by
  rw [writeSeed_eq]
  exact Lines.plainEntry "random_seed" (toString n.toNat) (by decide) ho (plainable_toString _)
    (.nil (n := 0)) (by decide) (Lines.nil [2, 0])

/-- The seed, or nothing, behind a list. -/
theorem lines_seedBehind (seed : Option UInt64) :
    StartsLine 2 (writeSeed seed) ∧
      Lines [2, 0] (writeSeed seed) (seedTokens seed ++ [.blockEnd, .blockEnd, .streamEnd]) := by
  cases seed with
  | none => exact ⟨.nil, Lines.nil [2, 0]⟩
  | some n =>
      refine ⟨?_, lines_seed (.next rfl) n⟩
      rw [writeSeed_eq]
      exact .cons 2 'r' _ (Nat.le_refl 2) rfl

theorem plainable_name (p : Preference) : plainable p.name.toList = true := by
  cases p with
  | «by» m o => cases m <;> cases o <;> decide
  | random => decide
  | none => decide

/-- The entries of a list, each on a line of its own. -/
theorem lines_entries (ps : List Preference) {rest : List Char} {ts : List Token}
    (hrest : StartsLine 2 rest) (h : Lines [2, 0] rest ts) :
    StartsLine 2 (ps.flatMap (fun p => line ("  - " ++ p.name)) ++ rest) ∧
      Lines [2, 0] (ps.flatMap (fun p => line ("  - " ++ p.name)) ++ rest)
        ((ps.map Preference.name).flatMap Token.entry ++ ts) := by
  induction ps with
  | nil => exact ⟨hrest, h⟩
  | cons p ps ih =>
      have htext : ∀ cs, line ("  - " ++ p.name) ++ cs =
          List.replicate 2 ' ' ++ '-' :: ' ' :: (p.name.toList ++ '\n' :: cs) := by
        intro cs
        simp [line]
      rw [List.flatMap_cons, List.append_assoc, htext]
      constructor
      · exact .cons 2 '-' _ (Nat.le_refl 2) rfl
      · exact Lines.entry rfl (Within.plain p.name (plainable_name p) ih.1 (by decide) ih.2)

/-- The list is the first part of the overrides. -/
theorem lines_preferences (ps : List Preference) {rest : List Char} {ts : List Token}
    (hrest : StartsLine 2 rest) (h : Lines [2, 0] rest ts) :
    Lines [0] (writePreferences (some ps) ++ rest)
      (.blockMappingStart :: (preferenceTokens (some ps) ++ ts)) := by
  have ho : Opens 2 [0] [2, 0] [.blockMappingStart] := .first (by simp)
  cases ps with
  | nil =>
      have hvalue : Within [2, 0] false (' ' :: '[' :: ']' :: '\n' :: rest) _ :=
        Within.space (Within.emptySequence (Within.newLine h))
      exact Lines.key "prefix_preference" (by decide) ho rfl hvalue
  | cons p ps =>
      have hvalue : Within [2, 0] false ('\n' :: _) _ :=
        Within.newLine (lines_entries (p :: ps) hrest h).2
      rw [writePreferences, List.append_assoc]
      · exact Lines.key "prefix_preference" (by decide) ho rfl hvalue
      · simp

/-- The overrides, or nothing, are the last part of the document. -/
theorem lines_overrides (o : Option Overrides) :
    StartsLine 0 (writeOverrides o) ∧
      Lines [0] (writeOverrides o) (overrideTokens o ++ [.blockEnd, .streamEnd]) := by
  have ho : Opens 0 [0] [0] [] := .next rfl
  match o with
  | none => exact ⟨.nil, Lines.nil [0]⟩
  | some ⟨none, none⟩ =>
      have hvalue : Within [0] false [' ', '{', '}', '\n'] _ :=
        Within.space (Within.emptyMapping (Within.newLine (Lines.nil [0])))
      exact ⟨.cons 0 'o' _ (Nat.le_refl 0) rfl, Lines.key "overrides" (by decide) ho rfl hvalue⟩
  | some ⟨none, some n⟩ =>
      have hvalue : Within [0] false ('\n' :: _) _ :=
        Within.newLine (lines_seed (.first (by simp)) n)
      exact ⟨.cons 0 'o' _ (Nat.le_refl 0) rfl, Lines.key "overrides" (by decide) ho rfl hvalue⟩
  | some ⟨some ps, seed⟩ =>
      obtain ⟨hstart, hseed⟩ := lines_seedBehind seed
      have hvalue : Within [0] false ('\n' :: _) _ :=
        Within.newLine (lines_preferences ps hstart hseed)
      have hkey := Lines.key "overrides" (by decide) ho rfl hvalue
      rw [overrideTokens_append (by simp [Overrides.empty]), writeOverrides, List.append_assoc]
      · exact ⟨.cons 0 'o' _ (Nat.le_refl 0) rfl, hkey⟩
      · simp

/-- **The tokens of a document**, by the lines of its text. -/
theorem lines_write (e : Export) (h : IsPrintable e.preset) : Lines [] e.write e.tokens := by
  obtain ⟨hstart, hoverrides⟩ := lines_overrides e.overrides
  have hpreset := Within.space (within_writeString h hstart hoverrides)
  have hfirst : Opens 0 [] [0] [.blockMappingStart] := .first (by simp)
  rw [write, tokens]
  cases e.version with
  | none => exact Lines.key "preset" (by decide) hfirst rfl hpreset
  | some v =>
      have hkey := Lines.key "preset" (by decide) (.next rfl) rfl hpreset
      have hline := Lines.plainEntry "version" (toString v.toNat) (by decide) hfirst
        (plainable_toString v.toNat) (.cons 0 'p' _ (Nat.le_refl 0) rfl) (by decide) hkey
      have htext : writeVersion (some v) =
          "version".toList ++ ':' :: ' ' :: ((toString v.toNat).toList ++ ['\n']) := by
        simp [writeVersion, line]
      rw [htext]
      simp only [List.append_assoc, List.cons_append, List.nil_append]
      exact hline

/-! ## characters -/

theorem isAllowed_of_isWritable {c : Char} (h : isWritable c = true) : isAllowed c = true := by
  simp only [isWritable, isAllowed, Bool.or_eq_true, Bool.and_eq_true, decide_eq_true_eq,
    beq_iff_eq] at h ⊢
  omega

theorem all_isAllowed_of_plainable {cs : List Char} (h : plainable cs = true) :
    cs.all isAllowed = true :=
  List.all_eq_true.mpr fun c hc => isAllowed_of_isWritable (allowed_of_plainable h c hc).1

theorem all_isAllowed_singleQuotedFrom {cs : List Char}
    (h : ∀ c ∈ cs, isWritable c = true ∧ isBreak c = false) :
    (singleQuotedFrom false cs).all isAllowed = true := by
  induction cs with
  | nil => rfl
  | cons c cs ih =>
      obtain ⟨hw, hb⟩ := h c List.mem_cons_self
      have hc := isAllowed_of_isWritable hw
      have hcs := ih fun d hd => h d (List.mem_cons_of_mem c hd)
      rw [singleQuotedFrom, if_neg (by simp [hb]), List.all_append, hcs]
      by_cases hquote : c = '\''
      · rw [if_pos hquote]
        rfl
      · simp [hquote, hc]

theorem all_isAllowed_line {s t : String} (hs : s.toList.all isAllowed = true)
    (ht : plainable t.toList = true) : (line (s ++ t)).all isAllowed = true := by
  rw [line, String.toList_append, List.all_append, List.all_append, hs, all_isAllowed_of_plainable ht]
  rfl

theorem all_isAllowed_writePreferences (ps : Option (List Preference)) :
    (writePreferences ps).all isAllowed = true := by
  match ps with
  | none => rfl
  | some [] => decide
  | some (p :: ps) =>
      have hentry : ∀ q ∈ p :: ps, (line ("  - " ++ q.name)).all isAllowed = true :=
        fun q _ => all_isAllowed_line (by decide) (plainable_name q)
      rw [writePreferences, List.all_append, List.all_flatMap, List.all_eq_true.mpr hentry]
      · decide
      · simp

theorem all_isAllowed_writeSeed (seed : Option UInt64) : (writeSeed seed).all isAllowed = true := by
  cases seed with
  | none => rfl
  | some n => exact all_isAllowed_line (by decide) (plainable_toString _)

theorem all_isAllowed_writeOverrides (o : Option Overrides) :
    (writeOverrides o).all isAllowed = true := by
  have hlines : ∀ o : Overrides,
      (line "overrides:" ++ writePreferences o.preferences ++ writeSeed o.seed).all isAllowed = true := by
    intro o
    rw [List.all_append, List.all_append, all_isAllowed_writePreferences, all_isAllowed_writeSeed]
    decide
  match o with
  | none => rfl
  | some ⟨none, none⟩ => decide
  | some ⟨none, some n⟩ => exact hlines ⟨none, some n⟩
  | some ⟨some ps, seed⟩ =>
      rw [writeOverrides]
      · exact hlines ⟨some ps, seed⟩
      · simp

theorem all_isAllowed_writeString {s : String} (h : IsPrintable s) :
    (writeString s.toList).all isAllowed = true := by
  rcases writeString_of_printable h with ⟨_, hplain, htext⟩ | ⟨_, htext⟩
  · rw [htext, List.all_append, all_isAllowed_of_plainable hplain]
    rfl
  · rw [htext, singleQuoted, List.cons_append, List.all_cons, List.all_append,
      all_isAllowed_singleQuotedFrom fun c hc => isWritable_of_printable (h c hc)]
    decide

theorem all_isAllowed_write (e : Export) (h : IsPrintable e.preset) :
    e.write.all isAllowed = true := by
  have hversion : (writeVersion e.version).all isAllowed = true := by
    cases e.version with
    | none => rfl
    | some v => exact all_isAllowed_line (by decide) (plainable_toString _)
  rw [write, List.all_append, List.all_append, List.all_append, hversion, all_isAllowed_writeString h,
    all_isAllowed_writeOverrides]
  decide

/-- **The tokens of a document that is written.** -/
theorem ofText_write (e : Export) (h : IsPrintable e.preset) : Token.ofText e.write = (e.tokens, true) := by
  rw [Token.ofText, if_pos (all_isAllowed_write e h)]
  exact lines_write e h .start [] rfl

end Export

end PrefixRanking
