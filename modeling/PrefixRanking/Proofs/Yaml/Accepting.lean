import Mathlib.Data.List.Nodup
import PrefixRanking.Proofs.Except
import PrefixRanking.Yaml.Read

/-!
# What the readers accept

Each reader of nodes as a relation between a node and what it is read as: what fits, without the order in
which the parts are looked at and without the problems that are reported.  An alias counts as the node
that it stands for.

* `readOptional_eq_ok_iff`, `readVariant_eq_ok_iff`, `readList_eq_ok_iff` -- the readers of values.
* `Fields.Lawful` says what reading one field does to a partly read record, and `readEntries_eq_ok_iff`
  follows from it by induction over the entries.
* `readRecord_eq_ok_iff` -- a record is read from a mapping of known keys, none of them twice, where each
  field that is there holds what its node is read as, and each other one is as in the empty record.
-/

namespace PrefixRanking.Yaml

variable {α β γ : Type} {d : Document} {path outer : Schema.Path} {expected : String} {node : Node}

/-- A text is read as what its document is read as, if that is all there is in the text. -/
theorem readTextAs_eq_ok_iff {read : Document → Result α} {s : String} {a : α} :
    readTextAs read s = .ok a ↔
      (Document.ofText s).complete = true ∧ read (Document.ofText s) = .ok a := by
  rw [readTextAs, bind_eq_ok_iff]
  constructor
  · rintro ⟨b, hread, hb⟩
    split at hb
    · cases hb
      exact ⟨‹_›, hread⟩
    · contradiction
  · rintro ⟨hcomplete, hread⟩
    exact ⟨a, hread, if_pos hcomplete⟩

/-! ## what nodes stand for -/

namespace Scalar

/-- A plain scalar that stands for nothing: without a tag it is void or a name of nothing, and with the
tag of nothing it is such a name. -/
def IsNull (s : Scalar) : Prop :=
  s.style = .plain ∧
    match s.tag with
    | none => s.text = "" ∨ isNull s.text = true
    | some t => t = nullTag ∧ isNull s.text = true

/-- A scalar that is something: if it is plain then it does not stand for nothing, nor does its tag say
that it does. -/
def IsPresent (s : Scalar) : Prop := s.style = .plain → s.tag ≠ some nullTag ∧ ¬ s.IsNull

end Scalar

namespace Document

/-- The text of a scalar. -/
def text? (d : Document) (node : Node) : Option String :=
  match d.resolve node with
  | .scalar s => some s.text
  | _ => none

/-- The integer of a scalar without a minus sign. -/
def natural? (d : Document) (node : Node) : Option Nat :=
  match d.resolve node with
  | .scalar s => s.natural?
  | _ => none

/-- A scalar with this text. -/
def IsText (d : Document) (node : Node) (s : String) : Prop := d.text? node = some s

/-- An integer of 32 bits. -/
def IsUInt32 (d : Document) (node : Node) (n : UInt32) : Prop := d.natural? node = some n.toNat

/-- An integer of 64 bits. -/
def IsUInt64 (d : Document) (node : Node) (n : UInt64) : Prop := d.natural? node = some n.toNat

/-- The node stands for nothing. -/
def IsNull (d : Document) (node : Node) : Prop := ∃ s, d.resolve node = .scalar s ∧ s.IsNull

/-- The node stands for something. -/
def IsPresent (d : Document) (node : Node) : Prop :=
  match d.resolve node with
  | .scalar s => s.IsPresent
  | .sequence .. | .mapping .. => True
  | .alias _ | .missing => False

/-- What may be absent: nothing where the node stands for nothing, else what it stands for. -/
inductive IsOptional (d : Document) (R : Node → α → Prop) (node : Node) : Option α → Prop
  | absent (h : d.IsNull node) : IsOptional d R node none
  | present {a : α} (h : d.IsPresent node) (ha : R node a) : IsOptional d R node (some a)

/-- The name of one of several alternatives: exactly so as a scalar, or as a tag in front of nothing. -/
inductive IsNamed (d : Document) (name : α → String) (node : Node) (a : α) : Prop
  | text {s : Scalar} (h : d.resolve node = .scalar s) (htag : variantOfTag? s.tag = none)
      (htext : s.text = name a)
  | tag {s : Scalar} (h : d.resolve node = .scalar s) (htag : variantOfTag? s.tag = some (name a))
      (hstyle : s.style = .plain) (htext : s.text = "" ∨ isNull s.text = true)

/-- A list: the empty one where the scalar is void, else one element for each item. -/
inductive IsList (d : Document) (R : Node → α → Prop) (node : Node) : List α → Prop
  | void {s : Scalar} (h : d.resolve node = .scalar s) (hs : s.isVoid = true) : IsList d R node []
  | items {tag : Option String} {items : List Node} {as : List α}
      (h : d.resolve node = .sequence tag items) (has : List.Forall₂ R items as) : IsList d R node as

/-- A mapping with its entries: none where the scalar is void. -/
inductive IsMapping (d : Document) (node : Node) : List (Node × Node) → Prop
  | void {s : Scalar} (h : d.resolve node = .scalar s) (hs : s.isVoid = true) : IsMapping d node []
  | entries {tag : Option String} {es : List (Node × Node)} (h : d.resolve node = .mapping tag es) :
      IsMapping d node es

/-- A record: its fields are the entries of a mapping. -/
def IsRecord (d : Document) (P : List (Node × Node) → α → Prop) (node : Node) (a : α) : Prop :=
  ∃ es, d.IsMapping node es ∧ P es a

/-- The keys are scalars with these texts, and no text occurs twice. -/
structure KeysAmong (d : Document) (names : List String) (es : List (Node × Node)) : Prop where
  known : ∀ e ∈ es, ∃ name ∈ names, d.text? e.1 = some name
  distinct : (es.map fun e => d.text? e.1).Nodup

/-- There is an entry with this key and this value. -/
def HasEntry (d : Document) (es : List (Node × Node)) (name : String) (v : Node) : Prop :=
  ∃ k, (k, v) ∈ es ∧ d.text? k = some name

/-- The value of a field: what the value of its entry stands for; where there is no entry, the default. -/
structure IsField (d : Document) (es : List (Node × Node)) (name : String) (R : Node → α → Prop)
    (default a : α) : Prop where
  given : ∀ v, d.HasEntry es name v → R v a
  missing : (∀ v, ¬ d.HasEntry es name v) → a = default

end Document

/-! ## single values -/

theorem readText_eq_ok_iff {s : String} :
    readText d path expected node = .ok s ↔ d.IsText node s := by
  rw [readText, Document.IsText, Document.text?]
  cases d.resolve node with
  | scalar t => rw [Except.ok.injEq, Option.some.injEq]
  | sequence | mapping | «alias» | missing => exact ⟨nofun, nofun⟩

theorem readNatural_eq_ok_iff {n : Nat} :
    readNatural d path expected node = .ok n ↔ d.natural? node = some n ∧ n < UInt64.size := by
  have hfilter : (d.natural? node).filter (· < UInt64.size) = some n ↔
      d.natural? node = some n ∧ n < UInt64.size := by
    rw [Option.filter_eq_some_iff, decide_eq_true_iff]
  rw [← hfilter, readNatural, Document.natural?]
  cases d.resolve node with
  | scalar s =>
      dsimp only
      cases s.natural?.filter (· < UInt64.size) with
      | none => exact ⟨nofun, nofun⟩
      | some m => rw [Except.ok.injEq, Option.some.injEq]
  | sequence | mapping | «alias» | missing => exact ⟨nofun, nofun⟩

theorem readUInt64_eq_ok_iff {n : UInt64} :
    readUInt64 d path expected node = .ok n ↔ d.IsUInt64 node n := by
  rw [readUInt64, bind_eq_ok_iff]
  constructor
  · rintro ⟨m, hm, hn⟩
    obtain ⟨hm, hlt⟩ := readNatural_eq_ok_iff.mp hm
    rw [← pure_eq_ok_iff.mp hn, Document.IsUInt64, UInt64.toNat_ofNat_of_lt' hlt]
    exact hm
  · intro hn
    exact ⟨n.toNat, readNatural_eq_ok_iff.mpr ⟨hn, n.toNat_lt⟩, by rw [UInt64.ofNat_toNat]; rfl⟩

theorem readUInt32_eq_ok_iff {n : UInt32} :
    readUInt32 d path expected node = .ok n ↔ d.IsUInt32 node n := by
  rw [readUInt32, bind_eq_ok_iff]
  constructor
  · rintro ⟨m, hm, hn⟩
    split at hn
    · rw [← pure_eq_ok_iff.mp hn, Document.IsUInt32, UInt32.toNat_ofNat_of_lt' ‹_›]
      exact (readNatural_eq_ok_iff.mp hm).1
    · contradiction
  · intro hn
    have hlt : n.toNat < UInt32.size := n.toNat_lt
    refine ⟨n.toNat, readNatural_eq_ok_iff.mpr ⟨hn, Nat.lt_trans hlt (by decide)⟩, ?_⟩
    rw [if_pos hlt, UInt32.ofNat_toNat]
    rfl

/-- The integers of 64 bits are those below the bound. -/
theorem Document.exists_isUInt64_iff :
    (∃ n, d.IsUInt64 node n) ↔ ∃ n < UInt64.size, d.natural? node = some n := by
  constructor
  · rintro ⟨n, hn⟩
    exact ⟨n.toNat, n.toNat_lt, hn⟩
  · rintro ⟨n, hlt, hn⟩
    exact ⟨.ofNat n, by rw [IsUInt64, UInt64.toNat_ofNat_of_lt' hlt]; exact hn⟩

/-- The integers of 32 bits are those below the bound. -/
theorem Document.exists_isUInt32_iff :
    (∃ n, d.IsUInt32 node n) ↔ ∃ n < UInt32.size, d.natural? node = some n := by
  constructor
  · rintro ⟨n, hn⟩
    exact ⟨n.toNat, n.toNat_lt, hn⟩
  · rintro ⟨n, hlt, hn⟩
    exact ⟨.ofNat n, by rw [IsUInt32, UInt32.toNat_ofNat_of_lt' hlt]; exact hn⟩

/-! ## values that may be absent -/

theorem Scalar.isNull_of_untagged {s : Scalar} (hplain : s.style = .plain) (htag : s.tag = none) :
    s.IsNull ↔ (s.text.isEmpty || isNull s.text) = true := by
  rw [IsNull, htag, Bool.or_eq_true, String.isEmpty_iff]
  exact and_iff_right hplain

theorem Scalar.isNull_of_nullTag {s : Scalar} (hplain : s.style = .plain)
    (htag : s.tag = some nullTag) : s.IsNull ↔ isNull s.text = true := by
  rw [IsNull, htag]
  exact (and_iff_right hplain).trans (and_iff_right rfl)

/-- A tag of another kind says that the scalar is something. -/
theorem Scalar.not_isNull_of_tag {s : Scalar} {t : String} (htag : s.tag = some t)
    (ht : t ≠ nullTag) : ¬ s.IsNull := by
  rw [IsNull, htag]
  exact fun h => ht h.2.1

/-- A scalar stands for nothing, or it is something, or its tag says that it is nothing and its text does
not. -/
theorem readOptional_scalar {s : Scalar} (h : d.resolve node = .scalar s) (outer : Schema.Path)
    (read : Node → Result α) :
    s.IsNull ∧ readOptional d outer read node = .ok none ∨
      s.IsPresent ∧ readOptional d outer read node = (do return some (← read node)) ∨
      (¬ s.IsNull ∧ ¬ s.IsPresent) ∧ ∃ e, readOptional d outer read node = .error e := by
  rw [readOptional, h]
  dsimp only
  by_cases hplain : s.style = .plain
  · rw [if_neg (not_not_intro hplain)]
    cases htag : s.tag with
    | none =>
        have hiff := Scalar.isNull_of_untagged hplain htag
        by_cases hvoid : (s.text.isEmpty || isNull s.text) = true
        · exact .inl ⟨hiff.mpr hvoid, if_pos hvoid⟩
        · exact .inr (.inl ⟨fun _ => ⟨by rw [htag]; nofun, mt hiff.mp hvoid⟩, if_neg hvoid⟩)
    | some t =>
        by_cases ht : t = Scalar.nullTag
        · subst ht
          have hiff := Scalar.isNull_of_nullTag hplain htag
          dsimp only
          rw [if_neg (not_not_intro rfl)]
          by_cases hname : isNull s.text = true
          · exact .inl ⟨hiff.mpr hname, if_pos hname⟩
          · exact .inr (.inr ⟨⟨mt hiff.mp hname, fun hp => (hp hplain).1 htag⟩, _, if_neg hname⟩)
        · have hother : s.tag ≠ some Scalar.nullTag := by
            rw [htag]
            exact fun h => ht (Option.some.inj h)
          exact .inr (.inl ⟨fun _ => ⟨hother, Scalar.not_isNull_of_tag htag ht⟩, if_pos ht⟩)
  · exact .inr (.inl ⟨fun hp => (hplain hp).elim, if_pos hplain⟩)

namespace Document

theorem isNull_of_scalar {s : Scalar} (h : d.resolve node = .scalar s) : d.IsNull node ↔ s.IsNull := by
  rw [IsNull, h]
  exact ⟨fun ⟨_, hs, hnull⟩ => by cases hs; exact hnull, fun hnull => ⟨s, rfl, hnull⟩⟩

theorem not_isNull_of_not_scalar (h : ∀ s, d.resolve node ≠ .scalar s) : ¬ d.IsNull node :=
  fun ⟨s, hs, _⟩ => h s hs

theorem isPresent_of_scalar {s : Scalar} (h : d.resolve node = .scalar s) :
    d.IsPresent node ↔ s.IsPresent := by
  rw [IsPresent, h]

theorem isOptional_iff {R : Node → α → Prop} {o : Option α} :
    d.IsOptional R node o ↔
      d.IsNull node ∧ o = none ∨ d.IsPresent node ∧ ∃ a, R node a ∧ o = some a := by
  constructor
  · intro h
    cases h with
    | absent h => exact .inl ⟨h, rfl⟩
    | present h ha => exact .inr ⟨h, _, ha, rfl⟩
  · rintro (⟨h, rfl⟩ | ⟨h, a, ha, rfl⟩)
    · exact .absent h
    · exact .present h ha

theorem exists_isOptional_iff {R : Node → α → Prop} :
    (∃ o, d.IsOptional R node o) ↔ d.IsNull node ∨ d.IsPresent node ∧ ∃ a, R node a := by
  constructor
  · rintro ⟨o, ho⟩
    cases ho with
    | absent h => exact .inl h
    | present h ha => exact .inr ⟨h, _, ha⟩
  · rintro (h | ⟨h, a, ha⟩)
    · exact ⟨none, .absent h⟩
    · exact ⟨some a, .present h ha⟩

end Document

/-- **What may be absent** is nothing exactly where the node stands for nothing. -/
theorem readOptional_eq_ok_iff {read : Node → Result α} {R : Node → α → Prop} {o : Option α}
    (h : ∀ a, read node = .ok a ↔ R node a) :
    readOptional d outer read node = .ok o ↔ d.IsOptional R node o := by
  have hsome : (do return some (← read node)) = Except.ok o ↔ ∃ a, R node a ∧ o = some a := by
    rw [map_eq_ok_iff]
    exact exists_congr fun a => and_congr (h a) eq_comm
  rw [Document.isOptional_iff]
  cases hnode : d.resolve node with
  | scalar s =>
      rw [Document.isNull_of_scalar hnode, Document.isPresent_of_scalar hnode]
      rcases readOptional_scalar hnode outer read with
        ⟨hs, hread⟩ | ⟨hs, hread⟩ | ⟨⟨hnull, hpresent⟩, e, hread⟩
      · have hpresent : ¬ s.IsPresent := fun hp => (hp hs.1).2 hs
        rw [hread, Except.ok.injEq, eq_comm]
        simp only [hs, hpresent, true_and, false_and, or_false]
      · have hnull : ¬ s.IsNull := fun hn => (hs hn.1).2 hn
        rw [hread, hsome]
        simp only [hs, hnull, true_and, false_and, false_or]
      · rw [hread]
        simp only [hnull, hpresent, false_and, or_false, reduceCtorEq]
  | sequence | mapping =>
      have hnull : ¬ d.IsNull node := d.not_isNull_of_not_scalar (by rw [hnode]; nofun)
      rw [readOptional, Document.IsPresent, hnode]
      simp only [hsome, hnull, true_and, false_and, false_or]
  | «alias» | missing =>
      have hnull : ¬ d.IsNull node := d.not_isNull_of_not_scalar (by rw [hnode]; nofun)
      rw [readOptional, Document.IsPresent, hnode]
      simp only [hnull, false_and, or_false, reduceCtorEq]

/-! ## alternatives -/

namespace Document

theorem isNamed_of_scalar {s : Scalar} (h : d.resolve node = .scalar s) {name : α → String} {a : α} :
    d.IsNamed name node a ↔
      match variantOfTag? s.tag with
      | some t => t = name a ∧ s.style = .plain ∧ (s.text = "" ∨ isNull s.text = true)
      | none => s.text = name a := by
  constructor
  · intro hnamed
    cases hnamed with
    | text hs htag htext =>
        obtain rfl := Node.scalar.inj (h.symm.trans hs)
        rw [htag]
        exact htext
    | tag hs htag hstyle htext =>
        obtain rfl := Node.scalar.inj (h.symm.trans hs)
        rw [htag]
        exact ⟨rfl, hstyle, htext⟩
  · intro hmatch
    cases htag : variantOfTag? s.tag with
    | none =>
        rw [htag] at hmatch
        exact .text h htag hmatch
    | some t =>
        rw [htag] at hmatch
        exact .tag h (htag.trans (congrArg some hmatch.1)) hmatch.2.1 hmatch.2.2

theorem not_isNamed_of_not_scalar (h : ∀ s, d.resolve node ≠ .scalar s) {name : α → String} {a : α} :
    ¬ d.IsNamed name node a := by
  intro hnamed
  cases hnamed with
  | text hs | tag hs => exact h _ hs

end Document

/-- What a name names, whatever is said of a name that names nothing. -/
theorem named_eq_ok_iff {name : α → String} {ofName? : String → Option α}
    (h : ∀ s a, ofName? s = some a ↔ s = name a) {s : String} {e : Error} {a : α} :
    (match ofName? s with
      | some a => Except.ok a
      | none => .error e) = .ok a ↔ s = name a := by
  rw [← h]
  cases ofName? s with
  | none => exact ⟨nofun, nofun⟩
  | some b => rw [Except.ok.injEq, Option.some.injEq]

/-- **An alternative** is read from its exact name. -/
theorem readVariant_eq_ok_iff {variants : List String} {name : α → String}
    {ofName? : String → Option α} (h : ∀ s a, ofName? s = some a ↔ s = name a) {a : α} :
    readVariant d outer path variants ofName? node = .ok a ↔ d.IsNamed name node a := by
  unfold readVariant
  dsimp only
  cases hnode : d.resolve node with
  | scalar s =>
      rw [Document.isNamed_of_scalar hnode]
      cases htag : variantOfTag? s.tag with
      | none =>
          simp only [htag]
          exact named_eq_ok_iff h
      | some t =>
          simp only [htag]
          rw [bind_eq_ok_iff]
          simp only [Bool.and_eq_true, decide_eq_true_iff, Bool.or_eq_true, String.isEmpty_iff]
          constructor
          · rintro ⟨b, hb, hvoid⟩
            split at hvoid
            · cases hvoid
              exact ⟨(named_eq_ok_iff h).mp hb, ‹_›⟩
            · contradiction
          · rintro ⟨ht, hvoid⟩
            exact ⟨a, (named_eq_ok_iff h).mpr ht, if_pos hvoid⟩
  | sequence tag | mapping tag =>
      have hnamed : ¬ d.IsNamed name node a := d.not_isNamed_of_not_scalar (by rw [hnode]; nofun)
      cases htag : variantOfTag? tag with
      | none => simp only [htag, hnamed, reduceCtorEq]
      | some t =>
          simp only [htag, hnamed, iff_false]
          rw [bind_eq_ok_iff]
          rintro ⟨_, _, h⟩
          contradiction
  | «alias» | missing =>
      have hnamed : ¬ d.IsNamed name node a := d.not_isNamed_of_not_scalar (by rw [hnode]; nofun)
      simp only [hnamed, reduceCtorEq]

/-! ## lists -/

theorem readItems_eq_ok_iff {read : Schema.Path → Node → Result α} {R : Node → α → Prop}
    (h : ∀ path node a, read path node = .ok a ↔ R node a) {i : Nat} {items : List Node}
    {as : List α} : readItems path read i items = .ok as ↔ List.Forall₂ R items as := by
  induction items generalizing i as with
  | nil =>
      rw [readItems, Except.ok.injEq, List.forall₂_nil_left_iff]
      exact eq_comm
  | cons item items ih =>
      rw [readItems, bind_eq_ok_iff, List.forall₂_cons_left_iff]
      simp only [h, bind_eq_ok_iff, ih, pure_eq_ok_iff]
      constructor
      · rintro ⟨a, ha, as, has, rfl⟩
        exact ⟨a, as, ha, has, rfl⟩
      · rintro ⟨a, as, ha, has, rfl⟩
        exact ⟨a, ha, as, has, rfl⟩

/-- **A list** is read item by item. -/
theorem readList_eq_ok_iff {read : Schema.Path → Node → Result α} {R : Node → α → Prop}
    (h : ∀ path node a, read path node = .ok a ↔ R node a) {as : List α} :
    readList d path read node = .ok as ↔ d.IsList R node as := by
  rw [readList]
  constructor
  · intro hread
    cases hnode : d.resolve node with
    | scalar s =>
        rw [hnode] at hread
        dsimp only at hread
        split at hread
        · cases hread
          exact .void hnode ‹_›
        · contradiction
    | sequence tag items =>
        rw [hnode] at hread
        exact .items hnode ((readItems_eq_ok_iff h).mp hread)
    | mapping | «alias» | missing =>
        rw [hnode] at hread
        contradiction
  · intro hlist
    cases hlist with
    | void hnode hs =>
        rw [hnode]
        exact if_pos hs
    | items hnode has =>
        rw [hnode]
        exact (readItems_eq_ok_iff h).mpr has

/-! ## records -/

namespace Document

variable {es : List (Node × Node)} {k v : Node} {name : String} {names : List String}

theorem not_hasEntry_nil : ¬ d.HasEntry [] name v :=
  fun ⟨_, hmem, _⟩ => nomatch hmem

theorem hasEntry_cons {w : Node} :
    d.HasEntry ((k, v) :: es) name w ↔
      d.text? k = some name ∧ w = v ∨ d.HasEntry es name w := by
  constructor
  · rintro ⟨k', hmem, hk'⟩
    cases hmem with
    | head => exact .inl ⟨hk', rfl⟩
    | tail _ hmem => exact .inr ⟨k', hmem, hk'⟩
  · rintro (⟨hk, rfl⟩ | ⟨k', hmem, hk'⟩)
    · exact ⟨k, List.mem_cons_self, hk⟩
    · exact ⟨k', List.mem_cons_of_mem _ hmem, hk'⟩

/-- The condition on the keys is one on the list of their texts. -/
theorem keysAmong_iff :
    d.KeysAmong names es ↔
      (∀ t ∈ es.map fun e => d.text? e.1, ∃ name ∈ names, t = some name) ∧
        (es.map fun e => d.text? e.1).Nodup := by
  rw [List.forall_mem_map]
  exact ⟨fun h => ⟨h.known, h.distinct⟩, fun h => ⟨h.1, h.2⟩⟩

theorem keysAmong_nil : d.KeysAmong names [] := ⟨nofun, .nil⟩

theorem keysAmong_cons :
    d.KeysAmong names ((k, v) :: es) ↔
      ∃ name, d.text? k = some name ∧ name ∈ names ∧ (∀ w, ¬ d.HasEntry es name w) ∧
        d.KeysAmong names es := by
  constructor
  · rintro ⟨hknown, hdistinct⟩
    obtain ⟨name, hname, hk⟩ := hknown _ List.mem_cons_self
    obtain ⟨hnot, hrest⟩ := List.nodup_cons.mp hdistinct
    refine ⟨name, hk, hname, ?_, fun e he => hknown e (List.mem_cons_of_mem _ he), hrest⟩
    rintro w ⟨k', hmem, hk'⟩
    exact hnot (List.mem_map.mpr ⟨(k', w), hmem, hk'.trans hk.symm⟩)
  · rintro ⟨name, hk, hname, hnot, hrest⟩
    refine ⟨List.forall_mem_cons.mpr ⟨⟨name, hname, hk⟩, hrest.known⟩, ?_⟩
    refine List.nodup_cons.mpr ⟨fun hmem => ?_, hrest.distinct⟩
    obtain ⟨e, he, htext⟩ := List.mem_map.mp hmem
    exact hnot e.2 ⟨e.1, he, htext.trans hk⟩

variable {other : String} {R : Node → α → Prop} {default a : α}

theorem isField_of_not_hasEntry (h : ∀ v, ¬ d.HasEntry es name v) :
    d.IsField es name R default a ↔ a = default :=
  ⟨fun hf => hf.missing h, fun ha => ⟨fun v hv => (h v hv).elim, fun _ => ha⟩⟩

theorem isField_cons_self (hk : d.text? k = some name) (h : ∀ w, ¬ d.HasEntry es name w) :
    d.IsField ((k, v) :: es) name R default a ↔ R v a := by
  have hiff (w : Node) : d.HasEntry ((k, v) :: es) name w ↔ w = v := by
    rw [hasEntry_cons, or_iff_left (h w), and_iff_right hk]
  constructor
  · intro hf
    exact hf.given v ((hiff v).mpr rfl)
  · intro hv
    exact ⟨fun w hw => (hiff w).mp hw ▸ hv, fun hnone => (hnone v ((hiff v).mpr rfl)).elim⟩

theorem isField_cons_of_ne (hk : d.text? k = some name) (hne : other ≠ name) :
    d.IsField ((k, v) :: es) other R default a ↔ d.IsField es other R default a := by
  have hiff (w : Node) : d.HasEntry ((k, v) :: es) other w ↔ d.HasEntry es other w := by
    rw [hasEntry_cons, hk]
    exact or_iff_right fun h => hne (Option.some.inj h.1).symm
  constructor
  · rintro ⟨hgiven, hmissing⟩
    exact ⟨fun w hw => hgiven w ((hiff w).mpr hw), fun hnone => hmissing fun w => mt (hiff w).mp (hnone w)⟩
  · rintro ⟨hgiven, hmissing⟩
    exact ⟨fun w hw => hgiven w ((hiff w).mp hw), fun hnone => hmissing fun w => mt (hiff w).mpr (hnone w)⟩

/-- A field that is put into a sum of the fields. -/
theorem isField_map {f : α → γ} (hf : Function.Injective f) {R : Node → γ → Prop} :
    d.IsField es name R (f default) (f a) ↔
      d.IsField es name (fun node a => R node (f a)) default a :=
  ⟨fun h => ⟨h.given, fun hnone => hf (h.missing hnone)⟩,
    fun h => ⟨h.given, fun hnone => congrArg f (h.missing hnone)⟩⟩

theorem KeysAmong.eq_of_hasEntry (h : d.KeysAmong names es) {w : Node} (hv : d.HasEntry es name v)
    (hw : d.HasEntry es name w) : v = w := by
  obtain ⟨k, hmem, hk⟩ := hv
  obtain ⟨k', hmem', hk'⟩ := hw
  have heq : (k, v) = (k', w) :=
    List.inj_on_of_nodup_map h.distinct hmem hmem' (hk.trans hk'.symm)
  exact congrArg Prod.snd heq

/-- A field has a value where each of its entries has one: there is at most one entry. -/
theorem exists_isField_iff (h : d.KeysAmong names es) :
    (∃ a, d.IsField es name R default a) ↔ ∀ v, d.HasEntry es name v → ∃ a, R v a := by
  constructor
  · rintro ⟨a, ha⟩ v hv
    exact ⟨a, ha.given v hv⟩
  · intro hall
    by_cases hsome : ∃ v, d.HasEntry es name v
    · obtain ⟨v, hv⟩ := hsome
      obtain ⟨a, ha⟩ := hall v hv
      exact ⟨a, fun w hw => h.eq_of_hasEntry hv hw ▸ ha, fun hnone => (hnone v hv).elim⟩
    · have hnone := not_exists.mp hsome
      exact ⟨default, (isField_of_not_hasEntry hnone).mpr rfl⟩

end Document

/-- A node is a mapping with one list of entries. -/
theorem Document.IsMapping.unique {es es' : List (Node × Node)} (h : d.IsMapping node es)
    (h' : d.IsMapping node es') : es = es' := by
  cases h with
  | void hs =>
      cases h' with
      | void => rfl
      | entries he => simp [hs] at he
  | entries he =>
      cases h' with
      | void hs => simp [hs] at he
      | entries he' =>
          rw [he, Node.mapping.injEq] at he'
          exact he'.2

theorem Document.exists_isRecord_iff {P : List (Node × Node) → α → Prop} :
    (∃ a, d.IsRecord P node a) ↔ ∃ es, d.IsMapping node es ∧ ∃ a, P es a := by
  constructor
  · rintro ⟨a, es, hes, ha⟩
    exact ⟨es, hes, a, ha⟩
  · rintro ⟨es, hes, a, ha⟩
    exact ⟨a, es, hes, ha⟩

/-- What the fields of a record are: each has a part of the record, and to read its node is to put what
the node stands for into this part and to leave the others. -/
structure Fields.Lawful (fields : Fields β) (part : String → β → γ) (holds : Node → γ → Prop) :
    Prop where
  closed : fields.closed = true
  ext : ∀ a b, (∀ name ∈ fields.names, part name a = part name b) → a = b
  mix : ∀ name ∈ fields.names, ∀ a b, ∃ c, part name c = part name b ∧
    ∀ other ∈ fields.names, other ≠ name → part other c = part other a
  read_eq_ok_iff : ∀ name ∈ fields.names, ∀ path node a b, fields.read name path node a = .ok b ↔
    holds node (part name b) ∧ ∀ other ∈ fields.names, other ≠ name → part other b = part other a

section

variable {fields : Fields β} {part : String → β → γ} {holds : Node → γ → Prop} {seen : List String}
  {es : List (Node × Node)} {a b : β}

/-- One entry: its key is a field that has not been there. -/
theorem readEntries_cons_eq_ok_iff (hclosed : fields.closed = true) {k v : Node} :
    readEntries d path fields seen a ((k, v) :: es) = .ok b ↔
      ∃ name, d.text? k = some name ∧ name ∈ fields.names ∧ name ∉ seen ∧
        ∃ c, fields.read name (stepOf k name :: path) v a = .ok c ∧
          readEntries d path fields (name :: seen) c es = .ok b := by
  rw [readEntries, bind_eq_ok_iff]
  refine exists_congr fun name => ?_
  rw [readText_eq_ok_iff]
  refine and_congr_right fun _ => ?_
  by_cases hname : name ∈ fields.names
  · rw [if_pos hname, and_iff_right hname]
    by_cases hseen : name ∈ seen
    · rw [if_pos hseen]
      exact ⟨nofun, fun h => (h.1 hseen).elim⟩
    · rw [if_neg hseen, and_iff_right hseen, bind_eq_ok_iff]
  · rw [if_neg hname, if_pos hclosed]
    exact ⟨nofun, fun h => (hname h.1).elim⟩

/-- The fields after an entry whose key does not come again. -/
theorem forall_isField_cons {k v : Node} {name : String} (hk : d.text? k = some name)
    (hname : name ∈ fields.names) (hes : ∀ w, ¬ d.HasEntry es name w) :
    (∀ other ∈ fields.names, d.IsField ((k, v) :: es) other holds (part other a) (part other b)) ↔
      holds v (part name b) ∧
        ∀ other ∈ fields.names, other ≠ name → d.IsField es other holds (part other a) (part other b) := by
  constructor
  · intro h
    exact ⟨(d.isField_cons_self hk hes).mp (h name hname),
      fun other hother hne => (d.isField_cons_of_ne hk hne).mp (h other hother)⟩
  · rintro ⟨hv, hothers⟩ other hother
    by_cases hne : other = name
    · subst hne
      exact (d.isField_cons_self hk hes).mpr hv
    · exact (d.isField_cons_of_ne hk hne).mpr (hothers other hother hne)

/-- **The entries of a mapping** are read exactly where their keys are fields that have not been there,
none of them twice. -/
theorem readEntries_eq_ok_iff (h : fields.Lawful part holds) :
    readEntries d path fields seen a es = .ok b ↔
      d.KeysAmong fields.names es ∧ (∀ name ∈ seen, ∀ v, ¬ d.HasEntry es name v) ∧
        ∀ name ∈ fields.names, d.IsField es name holds (part name a) (part name b) := by
  induction es generalizing seen a with
  | nil =>
      rw [readEntries, Except.ok.injEq]
      constructor
      · rintro rfl
        exact ⟨d.keysAmong_nil, fun _ _ _ => d.not_hasEntry_nil,
          fun _ _ => (d.isField_of_not_hasEntry fun _ => d.not_hasEntry_nil).mpr rfl⟩
      · rintro ⟨-, -, hfields⟩
        exact h.ext a b fun name hname =>
          ((hfields name hname).missing fun _ => d.not_hasEntry_nil).symm
  | cons e es ih =>
      obtain ⟨k, v⟩ := e
      rw [readEntries_cons_eq_ok_iff h.closed]
      constructor
      · rintro ⟨name, hk, hname, hnew, c, hc, hrest⟩
        obtain ⟨hkeys, hseen, hfields⟩ := ih.mp hrest
        obtain ⟨hv, hothers⟩ := (h.read_eq_ok_iff name hname _ _ _ _).mp hc
        have hes : ∀ w, ¬ d.HasEntry es name w := hseen name List.mem_cons_self
        have hpart : part name b = part name c := (hfields name hname).missing hes
        refine ⟨d.keysAmong_cons.mpr ⟨name, hk, hname, hes, hkeys⟩, ?_, ?_⟩
        · intro old hold w hw
          cases d.hasEntry_cons.mp hw with
          | inl hw =>
              obtain rfl : name = old := Option.some.inj (hk.symm.trans hw.1)
              exact hnew hold
          | inr hw => exact hseen old (List.mem_cons_of_mem _ hold) w hw
        · refine (forall_isField_cons hk hname hes).mpr ⟨hpart ▸ hv, fun other hother hne => ?_⟩
          exact hothers other hother hne ▸ hfields other hother
      · rintro ⟨hkeys, hseen, hfields⟩
        obtain ⟨name, hk, hname, hes, hkeys⟩ := d.keysAmong_cons.mp hkeys
        obtain ⟨hv, hrest⟩ := (forall_isField_cons hk hname hes).mp hfields
        have hnew : name ∉ seen := fun hold => hseen name hold v (d.hasEntry_cons.mpr (.inl ⟨hk, rfl⟩))
        -- the record in between has the field from the end and all others from the start
        obtain ⟨c, hpart, hothers⟩ := h.mix name hname a b
        refine ⟨name, hk, hname, hnew, c, ?_, ih.mpr ⟨hkeys, ?_, fun other hother => ?_⟩⟩
        · exact (h.read_eq_ok_iff name hname _ _ _ _).mpr ⟨hpart.symm ▸ hv, hothers⟩
        · refine List.forall_mem_cons.mpr ⟨hes, fun old hold w hw => ?_⟩
          exact hseen old hold w (d.hasEntry_cons.mpr (.inr hw))
        · by_cases hne : other = name
          · subst hne
            exact (d.isField_of_not_hasEntry hes).mpr hpart.symm
          · exact (hothers other hother hne).symm ▸ hrest other hother hne

/-- A record is read from the entries of a mapping. -/
theorem readRecord_eq_ok_iff_readEntries {empty : β} :
    readRecord d path expected fields empty node = .ok b ↔
      ∃ es, d.IsMapping node es ∧ readEntries d path fields [] empty es = .ok b := by
  rw [readRecord]
  constructor
  · intro hread
    cases hnode : d.resolve node with
    | scalar s =>
        rw [hnode] at hread
        dsimp only at hread
        split at hread
        · exact ⟨[], .void hnode ‹_›, hread⟩
        · contradiction
    | mapping tag es =>
        rw [hnode] at hread
        exact ⟨es, .entries hnode, hread⟩
    | sequence | «alias» | missing =>
        rw [hnode] at hread
        contradiction
  · rintro ⟨es, hmapping, hes⟩
    cases hmapping with
    | void hnode hs =>
        rw [hnode]
        exact (if_pos hs).trans hes
    | entries hnode =>
        rw [hnode]
        exact hes

/-- **A record** is read exactly from a mapping of its fields. -/
theorem readRecord_eq_ok_iff (h : fields.Lawful part holds) {empty : β} :
    readRecord d path expected fields empty node = .ok b ↔
      d.IsRecord (fun es b => d.KeysAmong fields.names es ∧
        ∀ name ∈ fields.names, d.IsField es name holds (part name empty) (part name b)) node b := by
  refine readRecord_eq_ok_iff_readEntries.trans ?_
  refine exists_congr fun es => and_congr_right fun _ => ?_
  rw [readEntries_eq_ok_iff h]
  exact and_congr_right fun _ => and_iff_right nofun

end

/-- **One field of a record**, which may have other keys: it holds what its entry stands for, or the default
where it has none, if the other fields leave it as it is. -/
theorem isField_of_readEntries {fields : Fields β} {name : String} (part : β → γ)
    (hname : name ∈ fields.names) {holds : Node → γ → Prop}
    (hread : ∀ path node a b, fields.read name path node a = .ok b → holds node (part b))
    (hkept : ∀ other ∈ fields.names, other ≠ name → ∀ path node a b,
      fields.read other path node a = .ok b → part b = part a)
    {seen : List String} {es : List (Node × Node)} {a b : β}
    (h : readEntries d path fields seen a es = .ok b) :
    d.IsField es name holds (part a) (part b) ∧ (name ∈ seen → ∀ v, ¬ d.HasEntry es name v) := by
  induction es generalizing seen a with
  | nil =>
      cases h
      exact ⟨(d.isField_of_not_hasEntry fun _ => d.not_hasEntry_nil).mpr rfl, fun _ _ => d.not_hasEntry_nil⟩
  | cons e es ih =>
      obtain ⟨k, v⟩ := e
      rw [readEntries, bind_eq_ok_iff] at h
      obtain ⟨key, hk, h⟩ := h
      rw [readText_eq_ok_iff] at hk
      -- an entry of another key is neither the entry of the field nor a reason that there is none
      have hother (hne : name ≠ key) {c : β} {seen' : List String} (hc : part c = part a)
          (hseen : name ∈ seen → name ∈ seen') (h : readEntries d path fields seen' c es = .ok b) :
          d.IsField ((k, v) :: es) name holds (part a) (part b) ∧
            (name ∈ seen → ∀ w, ¬ d.HasEntry ((k, v) :: es) name w) := by
        obtain ⟨hfield, hnone⟩ := ih h
        refine ⟨(d.isField_cons_of_ne hk hne).mpr (hc ▸ hfield), fun hold w hw => ?_⟩
        cases d.hasEntry_cons.mp hw with
        | inl hw => exact hne (Option.some.inj (hw.1.symm.trans hk))
        | inr hw => exact hnone (hseen hold) w hw
      by_cases hkey : key ∈ fields.names
      · rw [if_pos hkey] at h
        by_cases hseen : key ∈ seen
        · rw [if_pos hseen] at h
          contradiction
        · rw [if_neg hseen, bind_eq_ok_iff] at h
          obtain ⟨c, hc, h⟩ := h
          by_cases hne : name = key
          · subst hne
            obtain ⟨hfield, hnone⟩ := ih h
            have hes := hnone List.mem_cons_self
            have hpart : part b = part c := (d.isField_of_not_hasEntry hes).mp hfield
            exact ⟨(d.isField_cons_self hk hes).mpr (hpart ▸ hread _ _ _ _ hc), fun hold => absurd hold hseen⟩
          · exact hother hne (hkept key hkey (Ne.symm hne) _ _ _ _ hc) (List.mem_cons_of_mem key) h
      · have hne : name ≠ key := fun heq => hkey (heq ▸ hname)
        rw [if_neg hkey] at h
        split at h
        · contradiction
        · exact hother hne rfl id h

end PrefixRanking.Yaml
