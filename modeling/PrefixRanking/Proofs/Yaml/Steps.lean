import PrefixRanking.Proofs.Yaml.Scalar
import PrefixRanking.Yaml.Token.OfText

/-!
# Dividing text in block collections into tokens

What is at the cursor, in block collections only, with the state behind it:

* `run_key` -- a key and its colon, with the mapping that it opens;
* `run_plain`, `run_quoted`, `run_emptySequence`, `run_emptyMapping` -- a value on the line of its key;
* `run_entry` -- the dash of an entry of a sequence;
* `run_space`, `run_newLine` -- what stands between the tokens;
* `run_end` -- the end of the text.
-/

namespace PrefixRanking.Yaml

namespace Position

/-- Characters take four octets at most. -/
theorem offset_forward_le (p : Position) (cs : List Char) :
    (p.forward cs).offset ≤ p.offset + 4 * cs.length := by
  induction cs generalizing p with
  | nil => exact Nat.le_refl _
  | cons c cs ih =>
      have hnext : (p.next c).offset = p.offset + c.utf8Size := rfl
      have hsize := c.utf8Size_le_four
      have hrec := ih (p.next c)
      rw [forward, List.foldl_cons, ← forward, List.length_cons]
      omega

end Position

namespace TokenState

/-! ## single steps -/

/-- The tokens from a state on depend on it only from its next token on. -/
theorem run_of_toNext_eq {s t : TokenState} (h : s.toNext = t.toNext) :
    s.run true = t.run true := by
  have hstep : s.next? true = t.next? true := by
    rw [next?_true, next?_true, step?, step?, h]
  cases hs : s.next? true with
  | none =>
      have hcertain : s.tokens.drop (s.count - s.certain) = t.tokens.drop (t.count - t.certain) := by
        show s.toNext.tokens.drop (s.toNext.count - s.toNext.certain) =
          t.toNext.tokens.drop (t.toNext.count - t.toNext.certain)
        rw [h]
      rw [run_of_next?_none hs, run_of_next?_none (hstep ▸ hs), hcertain]
  | some u =>
      cases he : u.ended with
      | true => rw [run_of_next?_ended hs he, run_of_next?_ended (hstep ▸ hs) he]
      | false => exact (run_of_next? hs he).trans (run_of_next? (hstep ▸ hs) he).symm

/-- A token at the cursor, which closes no collection. -/
theorem run_of_fetch? {s t u : TokenState} (hnext : s.toNext = s) (hstale : s.dropStale? = some s)
    (hclose : s.closeDeeper s.cursor.pos.column = s) (hf : s.fetch? = some t)
    (hdrop : t.dropStale? = some u) (he : u.ended = false) : s.run true = u.run true := by
  refine run_of_next? ?_ he
  rw [next?_true, step?, hnext, hstale]
  show (s.closeDeeper s.cursor.pos.column).fetch?.bind dropStale? = some u
  rw [hclose, hf]
  exact hdrop

/-- A state in block collections, with a possible key or none. -/
def inBlock (cs : List Char) (p : Position) (indents : List Nat) (key : Option KeyStart)
    (allowed : Bool) (tokens : List Token) : TokenState where
  cursor := ⟨cs, p⟩
  indents
  keyStart := key
  outer := []
  keyAllowed := allowed
  tokens
  count := tokens.length
  ended := false

section

variable {cs rest : List Char} {p q : Position} {I : List Nat} {key : Option KeyStart}
  {allowed : Bool} {T : List Token}

@[simp] theorem keyStart_inBlock : (inBlock cs p I key allowed T).keyStart = key := rfl

@[simp] theorem outer_inBlock : (inBlock cs p I key allowed T).outer = [] := rfl

theorem toNext_inBlock : (inBlock cs p I key allowed T).toNext =
    inBlock (skipFrom false allowed false p cs).2.rest (skipFrom false allowed false p cs).2.pos I key
      (skipFrom false allowed false p cs).1 T := rfl

theorem dropStale?_inBlock (h : ∀ k ∈ key, (inBlock cs p I key allowed T).isStale k = false) :
    (inBlock cs p I key allowed T).dropStale? = some (inBlock cs p I key allowed T) := by
  cases key with
  | none => rfl
  | some k =>
      have hk := h k rfl
      rw [dropStale?, if_neg (by simp [hk])]
      simp only [keyStart_inBlock, outer_inBlock, Option.any_some, hk, Bool.false_eq_true, ↓reduceIte,
        List.map_nil]
      rfl

/-- A possible key on an earlier line is forgotten. -/
theorem dropStale?_inBlock_of_line (n : Nat) (h : q.line < p.line) :
    (inBlock cs p I (some ⟨n, q, false⟩) allowed T).dropStale? =
      some (inBlock cs p I none allowed T) := by
  simp [dropStale?, inBlock, isStale, h]

theorem closeDeeper_inBlock {column : Nat} (h : ∀ i ∈ I.head?, i ≤ column) :
    (inBlock cs p I key allowed T).closeDeeper column = inBlock cs p I key allowed T := by
  cases I with
  | nil => rfl
  | cons i I =>
      have hi : ¬ column < i := Nat.not_lt.mpr (h i rfl)
      simp [closeDeeper, inBlock, inFlow, hi]

/-! ## plain scalars -/

/-- The least indentation of a further line of a plain scalar. -/
def plainIndent : List Nat → Nat
  | [] => 0
  | n :: _ => n + 1

theorem plainIndent_le {column : Nat} (h : ∀ i ∈ I.head?, i ≤ column) :
    plainIndent I ≤ column + 1 := by
  cases I with
  | nil => exact Nat.zero_le _
  | cons i I => exact Nat.succ_le_succ (h i rfl)

/-- The cursor is a possible key where one is allowed. -/
theorem saveKey?_inBlock : (inBlock cs p I none allowed T).saveKey? =
    some (inBlock cs p I (if allowed then some ⟨T.length, p, I.head? == some p.column⟩ else none)
      allowed T) := by
  cases allowed <;> rfl

theorem fetchPlain?_inBlock {c : Char} {l : Plain}
    (h : plainFrom false (plainIndent I) .none (p.next c) cs = some l) :
    (inBlock (c :: cs) p I none allowed T).fetchPlain? c =
      some (inBlock l.cursor.rest l.cursor.pos I
        (if allowed then some ⟨T.length, p, I.head? == some p.column⟩ else none) l.broken
        (.scalar (String.ofList (c :: l.text)) .plain :: T)) := by
  rw [fetchPlain?, saveKey?_inBlock]
  cases I with
  | nil =>
      show (plainFrom false 0 .none (p.next c) cs).bind _ = _
      rw [plainIndent] at h
      rw [h]
      rfl
  | cons i I =>
      show (plainFrom false (i + 1) .none (p.next c) cs).bind _ = _
      rw [plainIndent] at h
      rw [h]
      rfl

theorem startsMarker_cons_ne {m c : Char} (h : c ≠ m) (cs : List Char) :
    startsMarker m (c :: cs) = false := by
  rw [startsMarker.eq_def]
  split
  · next heq =>
      rw [List.cons.injEq] at heq
      simp [← heq.1, h]
  · rfl

theorem startsPlain_of_startsScalar {c : Char} (h : StartsScalar c cs) (rest : List Char) :
    startsPlain false c (cs ++ rest).head? = true := by
  by_cases hc : (c == '?' || c == ':' || c == '-') = true
  · have hnext := blankOrEnd_head?_append (h.apart hc) rest
    generalize (cs ++ rest).head? = next at hnext ⊢
    have hany : next.any isBlank = false := by
      cases next with
      | none => rfl
      | some d =>
          rw [blankOrEnd, Bool.or_eq_false_iff] at hnext
          exact hnext.1
    simp only [Bool.or_eq_true, beq_iff_eq] at hc
    rcases hc with (rfl | rfl) | rfl <;> simp [startsPlain, hnext, hany]
  · have hblank : isBlank c = false := by
      rw [isBlank_eq_of_isWritable h.first.1]
      simpa using h.unspaced
    have hind : isIndicator c = false := by
      have hlist := h.unlisted
      simp only [isIndicator, List.contains_cons, Bool.or_eq_false_iff, Bool.not_eq_true] at hlist hc ⊢
      simp [hlist, hc]
    simp [startsPlain, hblank, h.first.2, hind]

/-- The characters of a plain scalar start one, if they cannot be taken for a document marker. -/
theorem fetch?_of_startsScalar {c : Char} (h : StartsScalar c cs)
    (hmarker : p.column = 0 → c ≠ '-' ∧ c ≠ '.') :
    (inBlock (c :: cs ++ rest) p I key allowed T).fetch? =
      (inBlock (c :: cs ++ rest) p I key allowed T).fetchPlain? c := by
  have hapart : ∀ m : Char, m = '?' ∨ m = ':' ∨ m = '-' →
      (c == m && blankOrEnd (cs ++ rest).head?) = false := by
    intro m hm
    rw [Bool.and_eq_false_imp, beq_iff_eq]
    rintro rfl
    exact blankOrEnd_head?_append (h.apart (by rcases hm with rfl | rfl | rfl <;> rfl)) rest
  have hm : ∀ m : Char, m = '-' ∨ m = '.' →
      (p.column == 0 && startsMarker m (c :: (cs ++ rest))) = false := by
    intro m hm
    rw [Bool.and_eq_false_imp, beq_iff_eq]
    intro hzero
    refine startsMarker_cons_ne ?_ _
    rcases hm with rfl | rfl
    · exact (hmarker hzero).1
    · exact (hmarker hzero).2
  have hlist := h.unlisted
  simp only [List.contains_cons, Bool.or_eq_false_iff] at hlist
  rw [List.cons_append]
  simp only [fetch?, inBlock, inFlow, List.isEmpty_nil, Bool.not_true, Bool.false_or,
    hm '-' (.inl rfl), hm '.' (.inr rfl), hapart '?' (.inl rfl), hapart ':' (.inr (.inl rfl)),
    hapart '-' (.inr (.inr rfl)), startsPlain_of_startsScalar h rest, hlist, Bool.and_false, Bool.false_and, Bool.false_eq_true,
    ↓reduceIte]

/-- A plain scalar starts at the cursor. -/
theorem skipFrom_of_startsScalar {c : Char} (h : StartsScalar c cs) (rest : List Char) :
    skipFrom false allowed false p (c :: cs ++ rest) = (allowed, ⟨c :: cs ++ rest, p⟩) := by
  have hmark : c ≠ '\ufeff' := by
    rintro rfl
    exact absurd h.first.1 (by decide)
  have htab : c ≠ '\t' := by
    rintro rfl
    exact absurd h.first.1 (by decide)
  have hlist := h.unlisted
  simp only [List.contains_cons, Bool.or_eq_false_iff, beq_eq_false_iff_ne] at hlist
  rw [List.cons_append, skipFrom]
  · simp [h.first.2, hmark, htab, h.unspaced, hlist]
  · exact fun _ hr => absurd hr (ne_of_not_isBreak h.first.2).1

/-! ## keys -/

/-- What the key at a column opens: a mapping, if it is to the right of the innermost open collection, and
nothing, if it is in this collection. -/
inductive Opens (column : Nat) (I : List Nat) : List Nat → List Token → Prop
  | first (h : ∀ i ∈ I.head?, i < column) : Opens column I (column :: I) [.blockMappingStart]
  | next (h : I.head? = some column) : Opens column I I []

theorem insert_inBlock (later ts T : List Token) :
    (inBlock cs p I key allowed (later ++ T)).insert T.length ts =
      inBlock cs p I key allowed (later ++ ts.reverse ++ T) := by
  have hcount : (later ++ T).length + ts.length = (later ++ ts.reverse ++ T).length := by
    simp
    omega
  have hlater : (later ++ T).length - T.length = later.length := by simp
  simp only [insert, inBlock, hcount, hlater, List.take_left, List.drop_left]

theorem isDeeper_inBlock {column : Nat} (h : ∀ i ∈ I.head?, i < column) :
    (inBlock cs p I key allowed T).isDeeper column = true := by
  cases I with
  | nil => rfl
  | cons i I => exact decide_eq_true (h i rfl)

theorem not_isDeeper_inBlock {column : Nat} (h : I.head? = some column) :
    (inBlock cs p I key allowed T).isDeeper column = false := by
  cases I with
  | nil => contradiction
  | cons i I =>
      rw [List.head?_cons, Option.some.injEq] at h
      exact decide_eq_false (by omega)

theorem openBlock_inBlock {column : Nat} {I' : List Nat} {opened : List Token}
    (h : Opens column I I' opened) (later T : List Token) :
    (inBlock cs p I key allowed (later ++ T)).openBlock column T.length .blockMappingStart =
      inBlock cs p I' key allowed (later ++ opened ++ T) := by
  cases h with
  | first h =>
      rw [openBlock, isDeeper_inBlock h, if_pos (by rfl), insert_inBlock]
      rfl
  | next h => rw [openBlock, not_isDeeper_inBlock h, if_neg (by simp), List.append_nil]

/-- The colon puts the key token, and what the key opens, in front of its scalar. -/
theorem fetchValue?_inBlock {k : KeyStart} {I' : List Nat} {opened : List Token} {t : Token}
    (h : Opens k.pos.column I I' opened) (hk : k.token = T.length) :
    (inBlock (':' :: rest) q I (some k) allowed (t :: T)).fetchValue? =
      some (inBlock rest (q.next ':') I' none false (.value :: t :: .key :: (opened ++ T))) := by
  have hinsert : (inBlock (':' :: rest) q I (some k) allowed (t :: T)).insert T.length [.key] =
      inBlock (':' :: rest) q I (some k) allowed (t :: .key :: T) := insert_inBlock [t] [.key] T
  have hopen : (inBlock (':' :: rest) q I (some k) allowed (t :: .key :: T)).openBlock k.pos.column
      T.length .blockMappingStart =
      inBlock (':' :: rest) q I' (some k) allowed (t :: .key :: (opened ++ T)) :=
    openBlock_inBlock h [t, .key] T
  simp only [fetchValue?, keyStart_inBlock, hk, hinsert, hopen]
  rfl

theorem Opens.le {column : Nat} {I' : List Nat} {opened : List Token} (h : Opens column I I' opened) :
    ∀ i ∈ I.head?, i ≤ column := by
  cases h with
  | first h => exact fun i hi => Nat.le_of_lt (h i hi)
  | next h =>
      rw [h]
      rintro i ⟨⟩
      exact Nat.le_refl _

/-- What is opened is a single token or none. -/
theorem Opens.reverse {k : Nat} {I' : List Nat} {opened : List Token} (h : Opens k I I' opened) :
    opened.reverse = opened := by
  cases h <;> rfl

theorem Opens.head? {k : Nat} {I' : List Nat} {opened : List Token} (h : Opens k I I' opened) :
    I'.head? = some k := by
  cases h with
  | first => rfl
  | next h => exact h

theorem fetch?_colon (h : blankOrEnd rest.head? = true) :
    (inBlock (':' :: rest) p I key allowed T).fetch? =
      (inBlock (':' :: rest) p I key allowed T).fetchValue? := by
  have hminus : startsMarker '-' (':' :: rest) = false := startsMarker_cons_ne (by decide) rest
  have hpoint : startsMarker '.' (':' :: rest) = false := startsMarker_cons_ne (by decide) rest
  simp [fetch?, inBlock, hminus, hpoint, h]

/-- The cursor has not gone too far behind a short key. -/
theorem not_isStale_forward {ds : List Char} (h : ds.length ≤ 256) (n : Nat) (required : Bool) :
    (inBlock cs (p.forward ds) I key allowed T).isStale ⟨n, p, required⟩ = false := by
  have hline := Position.line_forward p ds
  have hoffset := Position.offset_forward_le p ds
  have hnear : ¬ p.offset + 1024 < (p.forward ds).offset := by omega
  simp [isStale, inBlock, hline, hnear]

/-- The text of a key is a possible key when its colon is reached. -/
theorem run_keyText {c : Char} (hname : StartsScalar c cs)
    (hmarker : p.column = 0 → c ≠ '-' ∧ c ≠ '.') (hlen : (c :: cs).length ≤ 256)
    (hrest : blankOrEnd rest.head? = true) (hdeep : ∀ i ∈ I.head?, i ≤ p.column) :
    (inBlock (c :: cs ++ ':' :: rest) p I none true T).run true =
      (inBlock (':' :: rest) (p.forward (c :: cs)) I
        (some ⟨T.length, p, I.head? == some p.column⟩) false
        (.scalar (String.ofList (c :: cs)) .plain :: T)).run true := by
  have hplain : plainFrom false (plainIndent I) .none (p.next c) (cs ++ ':' :: rest) =
      some ⟨cs, ⟨':' :: rest, p.forward (c :: cs)⟩, false⟩ :=
    plainFrom_append hname.toContinues (by simp) (Nat.succ_pos _) (plainIndent_le hdeep)
      (plainFrom_colon hrest)
  refine run_of_fetch? ?_ rfl (closeDeeper_inBlock hdeep)
    ((fetch?_of_startsScalar hname hmarker).trans (fetchPlain?_inBlock hplain)) ?_ rfl
  · rw [toNext_inBlock, skipFrom_of_startsScalar hname]
  · refine dropStale?_inBlock ?_
    rintro _ ⟨⟩
    exact not_isStale_forward hlen _ _

/-- The colon behind a possible key. -/
theorem run_colon {k : KeyStart} {I' : List Nat} {opened : List Token} {t : Token}
    (hrest : blankOrEnd rest.head? = true) (ho : Opens k.pos.column I I' opened)
    (hk : k.token = T.length) (hcolumn : k.pos.column ≤ q.column)
    (hfresh : (inBlock (':' :: rest) q I (some k) allowed (t :: T)).isStale k = false) :
    (inBlock (':' :: rest) q I (some k) allowed (t :: T)).run true =
      (inBlock rest (q.next ':') I' none false (.value :: t :: .key :: (opened ++ T))).run true := by
  refine run_of_fetch? ?_ (dropStale?_inBlock ?_)
    (closeDeeper_inBlock fun i hi => Nat.le_trans (ho.le i hi) hcolumn)
    ((fetch?_colon hrest).trans (fetchValue?_inBlock ho hk)) rfl rfl
  · rw [toNext_inBlock, skipFrom]
    · rfl
    · simp
  · rintro _ ⟨⟩
    exact hfresh

/-- **A key and its colon.** -/
theorem run_key {c : Char} {I' : List Nat} {opened : List Token} (hname : StartsScalar c cs)
    (hmarker : p.column = 0 → c ≠ '-' ∧ c ≠ '.') (hlen : (c :: cs).length ≤ 256)
    (hrest : blankOrEnd rest.head? = true) (ho : Opens p.column I I' opened) :
    (inBlock (c :: cs ++ ':' :: rest) p I none true T).run true =
      (inBlock rest ((p.forward (c :: cs)).next ':') I' none false
        (.value :: .scalar (String.ofList (c :: cs)) .plain :: .key :: (opened ++ T))).run true := by
  rw [run_keyText hname hmarker hlen hrest ho.le]
  refine run_colon hrest ho rfl ?_ (not_isStale_forward hlen _ _)
  rw [Position.column_forward]
  exact Nat.le_add_right _ _

/-! ## values -/

/-- The way to the next token stops on the line, and goes no further from there. -/
theorem exists_skipFrom_eq {n : Nat} (h : StartsLine n rest) (p : Position) :
    ∃ c, skipFrom false true false p rest = (true, c) ∧
      skipFrom false true false c.pos c.rest = (true, c) ∧ c.pos.line = p.line := by
  cases h with
  | nil => exact ⟨⟨[], p⟩, rfl, rfl, rfl⟩
  | cons k c cs hk hc =>
      refine ⟨⟨c :: cs, p.forward (List.replicate k ' ')⟩, ?_, skipFrom_word _ _ hc _,
        Position.line_forward _ _⟩
      rw [skipFrom_blanks, skipFrom_word _ _ hc]

/-- **A plain value with its line.** -/
theorem run_plain {c : Char} {n : Nat} (h : StartsScalar c cs)
    (hdeep : ∀ i ∈ I.head?, i < p.column) (hcolumn : p.column ≠ 0) (hrest : StartsLine n rest)
    (hn : n < plainIndent I) :
    (inBlock (c :: cs ++ '\n' :: rest) p I none allowed T).run true =
      (inBlock rest ((p.forward (c :: cs)).newLine 1) I none true
        (.scalar (String.ofList (c :: cs)) .plain :: T)).run true := by
  have hle : ∀ i ∈ I.head?, i ≤ p.column := fun i hi => Nat.le_of_lt (hdeep i hi)
  obtain ⟨cursor, hskip, hagain, hline⟩ := exists_skipFrom_eq hrest ((p.forward (c :: cs)).newLine 1)
  have hplain : plainFrom false (plainIndent I) .none (p.next c) (cs ++ '\n' :: rest) =
      some ⟨cs, cursor, true⟩ := by
    refine plainFrom_append h.toContinues (by simp) (Nat.succ_pos _) (plainIndent_le hle) ?_
    rw [plainFrom_newLine hrest hn]
    exact congrArg (fun s => some (Plain.mk [] s.2 true)) hskip
  have hkey : (I.head? == some p.column) = false := by
    rw [beq_eq_false_iff_ne]
    exact fun heq => absurd (hdeep p.column heq) (Nat.lt_irrefl _)
  have hbelow : p.line < cursor.pos.line := by
    rw [hline]
    show p.line < (p.forward (c :: cs)).line + 1
    rw [Position.line_forward]
    exact Nat.lt_succ_self _
  have hdrop : (inBlock cursor.rest cursor.pos I
      (if allowed then some ⟨T.length, p, I.head? == some p.column⟩ else none) true
        (.scalar (String.ofList (c :: cs)) .plain :: T)).dropStale? =
      some (inBlock cursor.rest cursor.pos I none true
        (.scalar (String.ofList (c :: cs)) .plain :: T)) := by
    rw [hkey]
    cases allowed with
    | true => exact dropStale?_inBlock_of_line _ hbelow
    | false => rfl
  rw [run_of_fetch? (by rw [toNext_inBlock, skipFrom_of_startsScalar h]) rfl (closeDeeper_inBlock hle)
    ((fetch?_of_startsScalar h fun hz => absurd hz hcolumn).trans (fetchPlain?_inBlock hplain)) hdrop rfl]
  -- the scalar has taken the way to the next token with it
  refine run_of_toNext_eq ?_
  rw [toNext_inBlock, toNext_inBlock, hagain, hskip]

/-- **A quoted value.** -/
theorem run_quoted (h : ∀ c ∈ cs, isWritable c = true ∧ isBreak c = false)
    (hdeep : ∀ i ∈ I.head?, i ≤ p.column) (hrest : rest.head? ≠ some '\'') :
    (inBlock (singleQuoted cs ++ rest) p I none false T).run true =
      (inBlock rest (p.forward (singleQuoted cs)) I none false
        (.scalar (String.ofList cs) .quoted :: T)).run true := by
  have hquoted : quotedFrom true (.text .none) (p.next '\'') (singleQuotedFrom false cs ++ rest) =
      some (cs, ⟨rest, p.forward (singleQuoted cs)⟩) :=
    quotedFrom_singleQuotedFrom h (Nat.succ_pos _) hrest
  have hfetch : (inBlock (singleQuoted cs ++ rest) p I none false T).fetch? =
      (inBlock (singleQuoted cs ++ rest) p I none false T).fetchQuoted? true := by
    simp [fetch?, inBlock, singleQuoted, startsMarker_cons_ne]
  have hscalar : (inBlock (singleQuoted cs ++ rest) p I none false T).fetchQuoted? true =
      some (inBlock rest (p.forward (singleQuoted cs)) I none false
        (.scalar (String.ofList cs) .quoted :: T)) := by
    rw [fetchQuoted?, saveKey?_inBlock]
    show (quotedFrom true (.text .none) (p.next '\'') (singleQuotedFrom false cs ++ rest)).bind _ = _
    rw [hquoted]
    rfl
  refine run_of_fetch? ?_ rfl (closeDeeper_inBlock hdeep) (hfetch.trans hscalar) rfl rfl
  rw [toNext_inBlock, singleQuoted, List.cons_append, skipFrom]
  · rfl
  · simp

/-- The opening and the closing bracket of an empty flow collection. -/
theorem run_emptyFlow {s : TokenState} {a b : Char} {opening closing : Token}
    (hs : s = { inBlock (b :: rest) (p.next a) I none true (opening :: T) with outer := [none] })
    (hdeep : ∀ i ∈ I.head?, i ≤ p.column)
    (hnext : (inBlock (a :: b :: rest) p I none false T).toNext =
      inBlock (a :: b :: rest) p I none false T)
    (hopen : (inBlock (a :: b :: rest) p I none false T).fetch? = some s) (hnext' : s.toNext = s)
    (hclose : s.fetch? =
      some (inBlock rest ((p.next a).next b) I none false (closing :: opening :: T))) :
    (inBlock (a :: b :: rest) p I none false T).run true =
      (inBlock rest ((p.next a).next b) I none false (closing :: opening :: T)).run true := by
  subst hs
  exact (run_of_fetch? hnext rfl (closeDeeper_inBlock hdeep) hopen rfl rfl).trans
    (run_of_fetch? hnext' rfl rfl hclose rfl rfl)

/-- **An empty flow sequence as a value.** -/
theorem run_emptySequence (hdeep : ∀ i ∈ I.head?, i ≤ p.column) :
    (inBlock ('[' :: ']' :: rest) p I none false T).run true =
      (inBlock rest ((p.next '[').next ']') I none false
        (.flowSequenceEnd :: .flowSequenceStart :: T)).run true := by
  refine run_emptyFlow rfl hdeep rfl ?_ rfl ?_ <;> simp [fetch?, inBlock, startsMarker_cons_ne] <;> rfl

/-- **An empty flow mapping as a value.** -/
theorem run_emptyMapping (hdeep : ∀ i ∈ I.head?, i ≤ p.column) :
    (inBlock ('{' :: '}' :: rest) p I none false T).run true =
      (inBlock rest ((p.next '{').next '}') I none false
        (.flowMappingEnd :: .flowMappingStart :: T)).run true := by
  refine run_emptyFlow rfl hdeep rfl ?_ rfl ?_ <;> simp [fetch?, inBlock, startsMarker_cons_ne] <;> rfl

/-! ## entries of a sequence -/

/-- The dash of an entry at the column of the innermost mapping. -/
theorem run_entry (h : I.head? = some p.column) :
    (inBlock ('-' :: ' ' :: rest) p I none true T).run true =
      (inBlock (' ' :: rest) (p.next '-') I none true (.blockEntry :: T)).run true := by
  have hmarker : startsMarker '-' ('-' :: ' ' :: rest) = false := by
    cases rest <;> rfl
  have hfetch : (inBlock ('-' :: ' ' :: rest) p I none true T).fetch? =
      fetchBlockEntry? (inBlock ('-' :: ' ' :: rest) p I none true T) := by
    simp [fetch?, inBlock, hmarker, startsMarker_cons_ne, blankOrEnd, isBlank]
  have hopen : (inBlock ('-' :: ' ' :: rest) p I none true T).openBlock p.column T.length
      .blockSequenceStart = inBlock ('-' :: ' ' :: rest) p I none true T := by
    rw [openBlock, not_isDeeper_inBlock h, if_neg (by simp)]
  have hentry : fetchBlockEntry? (inBlock ('-' :: ' ' :: rest) p I none true T) =
      some (inBlock (' ' :: rest) (p.next '-') I none true (.blockEntry :: T)) := by
    rw [ fetchBlockEntry?, if_neg (by simp [inBlock])]
    show (((inBlock ('-' :: ' ' :: rest) p I none true T).openBlock p.column T.length
      .blockSequenceStart).dropKey?).bind _ = _
    rw [hopen]
    rfl
  refine run_of_fetch? rfl rfl (closeDeeper_inBlock ?_) (hfetch.trans hentry) rfl rfl
  rw [h]
  rintro i ⟨⟩
  exact Nat.le_refl _

/-! ## between the tokens -/

theorem run_space : (inBlock (' ' :: rest) p I none allowed T).run true =
    (inBlock rest (p.next ' ') I none allowed T).run true := run_of_toNext_eq rfl

theorem run_newLine : (inBlock ('\n' :: rest) p I none allowed T).run true =
    (inBlock rest (p.newLine 1) I none true T).run true := by
  cases allowed <;> exact run_of_toNext_eq rfl

theorem closeDeeper_inBlock_eq (column : Nat) : ∃ n ≤ I.length,
    (inBlock cs p I key allowed T).closeDeeper column =
      inBlock cs p (I.drop n) key allowed (List.replicate n .blockEnd ++ T) := by
  refine ⟨(I.takeWhile fun i => decide (column < i)).length, (List.takeWhile_prefix _).length_le, ?_⟩
  simp [closeDeeper, inBlock, inFlow, Nat.add_comm]

theorem closeAll_inBlock : (inBlock cs p I key allowed T).closeAll =
    inBlock cs p [] key allowed (List.replicate I.length .blockEnd ++ T) := by
  simp [closeAll, inBlock, inFlow, Nat.add_comm]

/-- The state behind the end of the text. -/
def atEnd (p : Position) (tokens : List Token) : TokenState :=
  { inBlock [] p [] none false (.streamEnd :: tokens) with ended := true }

theorem fetch?_nil : (inBlock [] p I none allowed T).fetch? =
    (inBlock [] p I none allowed T).fetchEnd? := rfl

theorem fetchEnd?_inBlock (h : p.column = 0) : (inBlock [] p I none allowed T).fetchEnd? =
    some (atEnd p (List.replicate I.length .blockEnd ++ T)) := by
  have hcolumn : (inBlock [] p I none allowed T).cursor.pos.column = 0 := h
  rw [fetchEnd?, if_pos hcolumn, closeAll_inBlock]
  rfl

/-- **The end of the text** closes all collections. -/
theorem run_end (h : p.column = 0) : (inBlock [] p I none true T).run true =
    (T.reverse ++ List.replicate I.length .blockEnd ++ [.streamEnd], true) := by
  obtain ⟨n, hn, hclose⟩ : ∃ n ≤ I.length, (inBlock [] p I none true T).closeDeeper p.column =
      inBlock [] p (I.drop n) none true (List.replicate n .blockEnd ++ T) :=
    closeDeeper_inBlock_eq p.column
  have hends : List.replicate (I.drop n).length Token.blockEnd ++ (List.replicate n .blockEnd ++ T) =
      List.replicate I.length .blockEnd ++ T := by
    rw [← List.append_assoc, List.replicate_append_replicate, List.length_drop,
      Nat.sub_add_cancel hn]
  have hstep : (inBlock [] p I none true T).next? true =
      some (atEnd p (List.replicate I.length .blockEnd ++ T)) := by
    rw [next?_true, step?]
    show ((inBlock [] p I none true T).closeDeeper p.column).fetch?.bind dropStale? = _
    rw [hclose, fetch?_nil, fetchEnd?_inBlock h, hends]
    rfl
  rw [run_of_next?_ended hstep rfl]
  show ((Token.streamEnd :: (List.replicate I.length .blockEnd ++ T)).reverse, true) = _
  simp

end

end TokenState

end PrefixRanking.Yaml
