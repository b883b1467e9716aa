import PrefixRanking.Yaml.Token.State
import PrefixRanking.Yaml.Write

/-!
# Scalars that are written are read back

The characters of a scalar are read up to where the scalar ends, whatever stands behind it:

* `plainFrom_append` -- a plain scalar, which ends at a colon (`plainFrom_colon`) or with its line
  (`plainFrom_newLine`);
* `quotedFrom_singleQuotedFrom` -- a scalar between single quotes.
-/

namespace PrefixRanking.Yaml

/-! ## characters -/

theorem isBlank_eq_of_isWritable {c : Char} (h : isWritable c = true) : isBlank c = (c == ' ') := by
  have ht : c ≠ '\t' := by rintro rfl; contradiction
  simp [isBlank, ht, Bool.beq_eq_decide_eq]

theorem ne_of_not_isBreak {c : Char} (h : isBreak c = false) : c ≠ '\r' ∧ c ≠ '\n' := by
  constructor <;> rintro rfl <;> contradiction

/-- Printable ASCII can be written as it is. -/
theorem isWritable_of_printable {c : Char} (h : 32 ≤ c.toNat ∧ c.toNat ≤ 126) :
    isWritable c = true ∧ isBreak c = false := by
  have hne : ∀ {d : Char}, ¬ (32 ≤ d.toNat ∧ d.toNat ≤ 126) → c ≠ d := by
    rintro d hd rfl
    exact hd h
  constructor
  · simp only [isWritable, Bool.or_eq_true, Bool.and_eq_true, decide_eq_true_eq]
    omega
  · simp [isBreak, hne (d := '\r') (by decide), hne (d := '\n') (by decide),
      hne (d := '\u0085') (by decide), hne (d := '\u2028') (by decide), hne (d := '\u2029') (by decide)]

theorem ne_of_isWord {c d : Char} (hc : isWord c = true) (hd : isWord d = false) : c ≠ d := by
  rintro rfl
  rw [hc] at hd
  contradiction

theorem not_isBreak_of_isWord {c : Char} (h : isWord c = true) : isBreak c = false := by
  simp [isBreak, ne_of_isWord h (d := '\r') rfl, ne_of_isWord h (d := '\n') rfl,
    ne_of_isWord h (d := '\u0085') rfl, ne_of_isWord h (d := '\u2028') rfl,
    ne_of_isWord h (d := '\u2029') rfl]

theorem not_isBlank_of_isWord {c : Char} (h : isWord c = true) : isBlank c = false := by
  simp [isBlank, ne_of_isWord h (d := ' ') rfl, ne_of_isWord h (d := '\t') rfl]

namespace Position

theorem column_forward (p : Position) (cs : List Char) :
    (p.forward cs).column = p.column + cs.length := by
  induction cs generalizing p with
  | nil => rfl
  | cons c cs ih =>
      have hnext : (p.next c).column = p.column + 1 := rfl
      have hrec := ih (p.next c)
      rw [forward, List.foldl_cons, ← forward, hrec, hnext, List.length_cons]
      omega

theorem line_forward (p : Position) (cs : List Char) : (p.forward cs).line = p.line := by
  induction cs generalizing p with
  | nil => rfl
  | cons c cs ih => exact ih (p.next c)

end Position

/-! ## plain scalars -/

/-- Characters that go on with a plain scalar behind a character of it. -/
structure Continues (c : Char) (cs : List Char) : Prop where
  allowed : ∀ d ∈ cs, isWritable d = true ∧ isBreak d = false
  unmarked : hasIndicator (c :: cs) = false
  closed : (c :: cs).getLast? ≠ some ' '

/-- Characters that a plain scalar can start with, and that go on with it. -/
structure StartsScalar (c : Char) (cs : List Char) : Prop extends Continues c cs where
  first : isWritable c = true ∧ isBreak c = false
  unspaced : c ≠ ' '
  /-- A mark at the start is followed by something else than a blank. -/
  apart : (c == '?' || c == ':' || c == '-') = true → blankOrEnd cs.head? = false
  unlisted : ['#', ',', '[', ']', '{', '}', '&', '*', '!', '|', '>', '\'', '\x22', '%', '@',
    '\x60'].contains c = false

theorem allowed_of_plainable {cs : List Char} (h : plainable cs = true) :
    ∀ c ∈ cs, isWritable c = true ∧ isBreak c = false := by
  simp only [plainable, Bool.and_eq_true, List.all_eq_true, Bool.not_eq_true'] at h
  exact h.1.1.1.1.2

theorem StartsScalar.of_plainable {c : Char} {cs : List Char} (h : plainable (c :: cs) = true) :
    StartsScalar c cs := by
  have hall := allowed_of_plainable h
  simp only [plainable, startsWithIndicator, Bool.and_eq_true, Bool.not_eq_true', bne_iff_ne,
    Bool.or_eq_false_iff] at h
  obtain ⟨⟨⟨⟨_, hspace⟩, hlast⟩, ⟨⟨hlist, hapart⟩, _⟩, _⟩, hmark⟩ := h
  exact {
    allowed := fun d hd => hall d (List.mem_cons_of_mem c hd)
    unmarked := hmark
    closed := hlast
    first := hall c List.mem_cons_self
    unspaced := by simpa using hspace
    apart := Bool.and_eq_false_imp.mp hapart
    unlisted := hlist }

theorem Continues.tail {c d : Char} {cs : List Char} (h : Continues c (d :: cs)) :
    Continues d cs := by
  refine ⟨fun e he => h.allowed e (List.mem_cons_of_mem d he), ?_, ?_⟩
  · have hmark := h.unmarked
    rw [hasIndicator, Bool.or_eq_false_iff] at hmark
    exact hmark.2
  · have hlast := h.closed
    rw [List.getLast?_cons_cons] at hlast
    exact hlast

/-- What is not followed by a blank or the end is not so in front of further characters. -/
theorem blankOrEnd_head?_append {cs : List Char} (h : blankOrEnd cs.head? = false) (rest : List Char) :
    blankOrEnd (cs ++ rest).head? = false := by
  cases cs with
  | nil => contradiction
  | cons c cs => exact h

/-- The first of the characters does not end the scalar. -/
theorem Continues.head {c d : Char} {cs : List Char} (h : Continues c (d :: cs)) (rest : List Char) :
    endsPlain false d (cs ++ rest).head? = false ∧ (c = ' ' → d ≠ '#') := by
  have hmark := h.unmarked
  simp only [hasIndicator, Bool.or_eq_false_iff, Bool.and_eq_false_imp, beq_iff_eq] at hmark
  obtain ⟨⟨hcolon, hsign⟩, _⟩ := hmark
  constructor
  · simp only [endsPlain, Bool.false_and, Bool.or_false, Bool.and_eq_false_imp, decide_eq_true_eq]
    exact fun hd => blankOrEnd_head?_append (hcolon hd) rest
  · intro hc hd
    have hblank := hsign hd
    rw [hc] at hblank
    contradiction

/-- **A plain scalar is read up to where it ends**, behind blanks of it that are held back. -/
theorem plainFrom_append {c : Char} {cs rest held : List Char} {indent : Nat} {pos : Position}
    {cursor : Cursor} {broken : Bool} (h : Continues c cs) (hheld : held ≠ [] → c = ' ')
    (hcolumn : 0 < pos.column) (hindent : indent ≤ pos.column)
    (hstop : plainFrom false indent .none (pos.forward cs) rest = some ⟨[], cursor, broken⟩) :
    plainFrom false indent (.blanks held) pos (cs ++ rest) = some ⟨held ++ cs, cursor, broken⟩ := by
  induction cs generalizing c held pos with
  | nil =>
      cases held with
      | nil => exact hstop
      | cons e held => exact absurd (by rw [hheld (by simp)]; rfl) h.closed
  | cons d cs ih =>
      obtain ⟨hw, hb⟩ := h.allowed d List.mem_cons_self
      obtain ⟨hplain, hsign⟩ := h.head rest
      have hr : d ≠ '\r' := (ne_of_not_isBreak hb).1
      have hcol : (pos.next d).column = pos.column + 1 := rfl
      rw [List.cons_append, plainFrom, if_neg (by simp [hb]), isBlank_eq_of_isWritable hw]
      · by_cases hd : d = ' '
        · subst hd
          have hrec : plainFrom false indent (.blanks (held ++ [' '])) (pos.next ' ') (cs ++ rest) =
              some ⟨held ++ [' '] ++ cs, cursor, broken⟩ :=
            ih h.tail (fun _ => rfl) (by omega) (by omega) hstop
          simpa [Gap.addBlank] using hrec
        · have hpart : (!(Gap.blanks held).isNone && endsPart false indent pos (d :: (cs ++ rest))) =
              false := by
            cases held with
            | nil => rfl
            | cons e held =>
                have hne := hsign (hheld (by simp))
                have hlow : ¬ pos.column < indent := by omega
                have hzero : pos.column ≠ 0 := by omega
                simp [endsPart, hlow, hzero, hne]
          have hrec : plainFrom false indent .none (pos.next d) (cs ++ rest) =
              some ⟨cs, cursor, broken⟩ :=
            ih h.tail (by simp) (by omega) (by omega) hstop
          rw [if_neg (by simpa using hd), if_neg (by rw [hpart]; simp), if_neg (by simp),
            if_neg (by rw [hplain]; simp), hrec]
          rfl
      · intro _ hd
        exact absurd hd hr

/-! ## where a plain scalar ends -/

theorem plainFrom_colon {indent : Nat} {pos : Position} {rest : List Char}
    (h : blankOrEnd rest.head? = true) :
    plainFrom false indent .none pos (':' :: rest) = some ⟨[], ⟨':' :: rest, pos⟩, false⟩ := by
  have hends : endsPlain false ':' rest.head? = true := by simp [endsPlain, h]
  rw [plainFrom, if_neg (by decide), if_neg (by decide), if_neg (by simp [Gap.none, Gap.isNone]),
    if_neg (by simp), if_pos hends]
  · rfl
  · simp

/-- What may stand at the start of a line that is indented by at most `n`: nothing, or an entry. -/
inductive StartsLine (n : Nat) : List Char → Prop
  | nil : StartsLine n []
  | cons (k : Nat) (c : Char) (cs : List Char) (hk : k ≤ n) (hc : isWord c = true) :
      StartsLine n (List.replicate k ' ' ++ c :: cs)

theorem skipFrom_blanks (allowed : Bool) (pos : Position) (k : Nat) (rest : List Char) :
    TokenState.skipFrom false allowed false pos (List.replicate k ' ' ++ rest) =
      TokenState.skipFrom false allowed false (pos.forward (List.replicate k ' ')) rest := by
  induction k generalizing pos with
  | zero => rfl
  | succ k ih =>
      rw [List.replicate_succ, List.cons_append, TokenState.skipFrom]
      · exact ih (pos.next ' ')
      · simp

theorem skipFrom_word (allowed : Bool) (pos : Position) {c : Char} (hc : isWord c = true)
    (rest : List Char) :
    TokenState.skipFrom false allowed false pos (c :: rest) = (allowed, ⟨c :: rest, pos⟩) := by
  rw [TokenState.skipFrom]
  · simp [not_isBreak_of_isWord hc, ne_of_isWord hc (d := '\ufeff') rfl,
      ne_of_isWord hc (d := ' ') rfl, ne_of_isWord hc (d := '\t') rfl, ne_of_isWord hc (d := '#') rfl]
  · exact fun _ h => absurd h (ne_of_isWord hc rfl)

theorem plainFrom_blanks (indent : Nat) (first more : List Char) (pos : Position) (k : Nat)
    (rest : List Char) :
    plainFrom false indent (.lines first more) pos (List.replicate k ' ' ++ rest) =
      plainFrom false indent (.lines first more) (pos.forward (List.replicate k ' ')) rest := by
  induction k generalizing pos with
  | zero => rfl
  | succ k ih =>
      rw [List.replicate_succ, List.cons_append, plainFrom, if_neg (by decide), if_pos (by decide),
        if_neg (by simp)]
      · exact ih (pos.next ' ')
      · simp

/-- A plain scalar ends with its line, if what comes next is not indented further. -/
theorem plainFrom_newLine {n indent : Nat} {pos : Position} {rest : List Char}
    (h : StartsLine n rest) (hn : n < indent) :
    plainFrom false indent .none pos ('\n' :: rest) =
      some ⟨[], (TokenState.skipFrom false true false (pos.newLine 1) rest).2, true⟩ := by
  have hline : plainFrom false indent .none pos ('\n' :: rest) =
      plainFrom false indent (.lines ['\n'] []) (pos.newLine 1) rest := by
    rw [plainFrom, if_pos (by decide)]
    · rfl
    · simp
  rw [hline]
  cases h with
  | nil => rfl
  | cons k c cs hk hc =>
      have hcolumn : ((pos.newLine 1).forward (List.replicate k ' ')).column < indent := by
        rw [Position.column_forward, List.length_replicate]
        show 0 + k < indent
        omega
      rw [plainFrom_blanks, skipFrom_blanks, skipFrom_word _ _ hc, plainFrom,
        if_neg (by simp [not_isBreak_of_isWord hc]), if_neg (by simp [not_isBlank_of_isWord hc]),
        if_pos (by simp [Gap.isNone, endsPart, hcolumn])]
      · rfl
      · exact fun _ h => absurd h (ne_of_isWord hc rfl)

/-! ## scalars between single quotes -/

/-- **A quoted scalar is read back**, behind blanks of it that are held back. -/
theorem quotedFrom_singleQuotedFrom {cs rest held : List Char} {pos : Position}
    (h : ∀ c ∈ cs, isWritable c = true ∧ isBreak c = false) (hcolumn : 0 < pos.column)
    (hrest : rest.head? ≠ some '\'') :
    quotedFrom true (.text (.blanks held)) pos (singleQuotedFrom false cs ++ rest) =
      some (held ++ cs, ⟨rest, pos.forward (singleQuotedFrom false cs)⟩) := by
  have hzero : ∀ q : Position, 0 < q.column → (q.column == 0) = false := by
    intro q hq
    rw [beq_eq_false_iff_ne]
    omega
  induction cs generalizing held pos with
  | nil =>
      have hend : singleQuotedFrom false [] = ['\''] := rfl
      rw [hend, List.singleton_append, quotedFrom, if_neg (by decide), if_neg (by decide),
        if_neg (by simp [hzero pos hcolumn]), if_pos (by simp), List.append_nil]
      · rfl
      · simp
      · rintro rest' _ rfl
        exact hrest rfl
  | cons c cs ih =>
      obtain ⟨hw, hb⟩ := h c List.mem_cons_self
      have hcs : ∀ d ∈ cs, isWritable d = true ∧ isBreak d = false :=
        fun d hd => h d (List.mem_cons_of_mem c hd)
      have hone : ∀ q : Position, ∀ d, 0 < (q.next d).column := fun q d => Nat.succ_pos q.column
      by_cases hquote : c = '\''
      · subst hquote
        have hrec : quotedFrom true (.text .none) ((pos.next '\'').next '\'')
            (singleQuotedFrom false cs ++ rest) =
              some (cs, ⟨rest, ((pos.next '\'').next '\'').forward (singleQuotedFrom false cs)⟩) :=
          ih hcs (hone _ _)
        have hwritten : singleQuotedFrom false ('\'' :: cs) =
            '\'' :: '\'' :: singleQuotedFrom false cs := rfl
        rw [hwritten, List.cons_append, List.cons_append, quotedFrom, if_pos rfl, hrec]
        rfl
      · have hwritten : singleQuotedFrom false (c :: cs) = c :: singleQuotedFrom false cs := by
          simp [singleQuotedFrom, hb, hquote]
        rw [hwritten, List.cons_append, quotedFrom, if_neg (by simp [hb]), isBlank_eq_of_isWritable hw]
        · by_cases hc : c = ' '
          · subst hc
            have hrec : quotedFrom true (.text (.blanks (held ++ [' ']))) (pos.next ' ')
                (singleQuotedFrom false cs ++ rest) =
                  some (held ++ [' '] ++ cs,
                    ⟨rest, (pos.next ' ').forward (singleQuotedFrom false cs)⟩) :=
              ih hcs (hone _ _)
            rw [if_pos (by decide), Gap.addBlank, hrec, List.append_assoc]
            rfl
          · have hrec : quotedFrom true (.text .none) (pos.next c) (singleQuotedFrom false cs ++ rest) =
                some (cs, ⟨rest, (pos.next c).forward (singleQuotedFrom false cs)⟩) :=
              ih hcs (hone _ _)
            rw [if_neg (by simpa using hc), if_neg (by simp [hzero pos hcolumn]),
              if_neg (by simpa using hquote), if_neg (by simp), hrec]
            rfl
        · exact fun _ hr => absurd hr (ne_of_not_isBreak hb).1
        · exact fun _ hq => absurd hq hquote

end PrefixRanking.Yaml
