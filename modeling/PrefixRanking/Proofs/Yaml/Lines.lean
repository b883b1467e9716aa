import PrefixRanking.Proofs.Yaml.Steps

/-!
# The tokens of lines

`Lines I cs ts` says that the text `cs`, from the start of a line on and inside block collections at the
columns `I`, is divided into the tokens `ts` up to its end, and `Within` says the same from a place within
a line.  The tokens of a text are found from its end: there is a lemma for each thing that may stand in
front of a text whose tokens are known.
-/

namespace PrefixRanking.Yaml

open TokenState

/-- From the start of a line on the text is divided into these tokens, whatever stands before it. -/
def Lines (I : List Nat) (cs : List Char) (ts : List Token) : Prop :=
  ∀ p T, p.column = 0 → (inBlock cs p I none true T).run true = (T.reverse ++ ts, true)

/-- The same from a place within a line, to the right of the innermost collection. -/
def Within (I : List Nat) (allowed : Bool) (cs : List Char) (ts : List Token) : Prop :=
  ∀ p T, p.column ≠ 0 → (∀ i ∈ I.head?, i < p.column) →
    (inBlock cs p I none allowed T).run true = (T.reverse ++ ts, true)

/-- Can the text stand as a key at the start of a line? -/
def isKey (name : String) : Bool :=
  let cs := name.toList
  plainable cs && cs.head? != some '-' && cs.head? != some '.' && decide (cs.length ≤ 256)

/-- The tokens of a key, up to its value. -/
def Token.keyed (name : String) : List Token := [.key, .scalar name .plain, .value]

/-- The tokens of an entry of a sequence. -/
def Token.entry (name : String) : List Token := [.blockEntry, .scalar name .plain]

section

variable {I : List Nat} {allowed : Bool} {cs rest : List Char} {ts : List Token}

theorem run_blanks {p : Position} {T : List Token} (k : Nat) :
    (inBlock (List.replicate k ' ' ++ rest) p I none allowed T).run true =
      (inBlock rest (p.forward (List.replicate k ' ')) I none allowed T).run true := by
  induction k generalizing p with
  | zero => rfl
  | succ k ih =>
      rw [List.replicate_succ, List.cons_append, run_space, ih]
      rfl

/-! ## at the start of a line -/

theorem Lines.nil (I : List Nat) : Lines I [] (List.replicate I.length .blockEnd ++ [.streamEnd]) := by
  intro p T hp
  rw [run_end hp, List.append_assoc]

/-- A key, with the mapping that it opens. -/
theorem Lines.key {k : Nat} {I' : List Nat} {opened : List Token} (name : String)
    (hkey : isKey name = true) (ho : Opens k I I' opened) (hrest : blankOrEnd rest.head? = true)
    (h : Within I' false rest ts) :
    Lines I (List.replicate k ' ' ++ (name.toList ++ ':' :: rest))
      (opened ++ (Token.keyed name ++ ts)) := by
  intro p T hp
  simp only [isKey, Bool.and_eq_true, bne_iff_ne, decide_eq_true_eq] at hkey
  obtain ⟨⟨⟨hplain, hdash⟩, hpoint⟩, hlen⟩ := hkey
  have hcolumn : (p.forward (List.replicate k ' ')).column = k := by
    rw [Position.column_forward, hp, List.length_replicate, Nat.zero_add]
  have hname : String.ofList name.toList = name := String.ofList_toList
  rw [run_blanks]
  generalize name.toList = cs at *
  cases cs with
  | nil => contradiction
  | cons c cs =>
      rw [run_key (.of_plainable hplain) (fun _ => ⟨fun hc => hdash (by rw [hc]; rfl), fun hc => hpoint (by rw [hc]; rfl)⟩)
        hlen hrest (by rw [hcolumn]; exact ho), h]
      · simp [ho.reverse, hname, Token.keyed]
      · exact Nat.succ_ne_zero _
      · rw [ho.head?]
        rintro i ⟨⟩
        have hbehind := Position.column_forward (p.forward (List.replicate k ' ')) (c :: cs)
        show k < ((p.forward (List.replicate k ' ')).forward (c :: cs)).column + 1
        omega

/-- The dash of an entry of a sequence at the column of the innermost mapping. -/
theorem Lines.entry {k : Nat} (hk : I.head? = some k) (h : Within I true rest ts) :
    Lines I (List.replicate k ' ' ++ '-' :: ' ' :: rest) (.blockEntry :: ts) := by
  intro p T hp
  have hcolumn : (p.forward (List.replicate k ' ')).column = k := by
    rw [Position.column_forward, hp, List.length_replicate, Nat.zero_add]
  rw [run_blanks, run_entry (by rw [hcolumn, hk]), run_space, h]
  · simp
  · exact Nat.succ_ne_zero _
  · rw [hk]
    rintro i ⟨⟩
    show k < (p.forward (List.replicate k ' ')).column + 1 + 1
    omega

/-! ## within a line -/

theorem Within.space (h : Within I allowed rest ts) : Within I allowed (' ' :: rest) ts := by
  intro p T hp hI
  rw [run_space]
  exact h _ T (Nat.succ_ne_zero _) fun i hi => Nat.lt_succ_of_lt (hI i hi)

theorem Within.newLine (h : Lines I rest ts) : Within I allowed ('\n' :: rest) ts := by
  intro p T hp hI
  rw [run_newLine]
  exact h _ T rfl

theorem Within.plain {n : Nat} (s : String) (hs : plainable s.toList = true)
    (hrest : StartsLine n rest) (hn : n < plainIndent I) (h : Lines I rest ts) :
    Within I allowed (s.toList ++ '\n' :: rest) (.scalar s .plain :: ts) := by
  intro p T hp hI
  have hname : String.ofList s.toList = s := String.ofList_toList
  generalize s.toList = cs at *
  cases cs with
  | nil => contradiction
  | cons c cs =>
      rw [run_plain (.of_plainable hs) hI hp hrest hn, h _ _ rfl, hname, List.reverse_cons, List.append_assoc]
      rfl

theorem Within.quoted (s : String) (hs : ∀ c ∈ s.toList, isWritable c = true ∧ isBreak c = false)
    (hrest : rest.head? ≠ some '\'') (h : Within I false rest ts) :
    Within I false (singleQuoted s.toList ++ rest) (.scalar s .quoted :: ts) := by
  intro p T hp hI
  have hcolumn := Position.column_forward p (singleQuoted s.toList)
  rw [run_quoted hs (fun i hi => Nat.le_of_lt (hI i hi)) hrest, h, String.ofList_toList,
    List.reverse_cons, List.append_assoc]
  · rfl
  · omega
  · intro i hi
    have := hI i hi
    omega

theorem Within.emptySequence (h : Within I false rest ts) :
    Within I false ('[' :: ']' :: rest) (.flowSequenceStart :: .flowSequenceEnd :: ts) := by
  intro p T hp hI
  rw [run_emptySequence fun i hi => Nat.le_of_lt (hI i hi), h]
  · simp
  · exact Nat.succ_ne_zero _
  · exact fun i hi => Nat.lt_succ_of_lt (Nat.lt_succ_of_lt (hI i hi))

theorem Within.emptyMapping (h : Within I false rest ts) :
    Within I false ('{' :: '}' :: rest) (.flowMappingStart :: .flowMappingEnd :: ts) := by
  intro p T hp hI
  rw [run_emptyMapping fun i hi => Nat.le_of_lt (hI i hi), h]
  · simp
  · exact Nat.succ_ne_zero _
  · exact fun i hi => Nat.lt_succ_of_lt (Nat.lt_succ_of_lt (hI i hi))

/-- **A line with a key and a plain value.** -/
theorem Lines.plainEntry {k n : Nat} {I' : List Nat} {opened : List Token} (name value : String)
    (hkey : isKey name = true) (ho : Opens k I I' opened) (hv : plainable value.toList = true)
    (hrest : StartsLine n rest) (hn : n < plainIndent I') (h : Lines I' rest ts) :
    Lines I (List.replicate k ' ' ++ (name.toList ++ ':' :: ' ' :: (value.toList ++ '\n' :: rest)))
      (opened ++ (Token.keyed name ++ .scalar value .plain :: ts)) :=
  Lines.key name hkey ho rfl (Within.space (Within.plain value hv hrest hn h))

end

end PrefixRanking.Yaml
