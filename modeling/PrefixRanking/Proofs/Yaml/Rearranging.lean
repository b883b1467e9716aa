import Mathlib.Data.List.Forall2
import PrefixRanking.Proofs.Yaml.Accepting

/-!
# Documents that differ in the order of entries

A relation between the nodes of two documents rearranges the one into the other where related nodes are
alike: the same scalar, sequences of related items, or mappings of related entries in any order.  A node
and an alias of it may be related as well.

Related nodes are read as the same values.  `Transfers` says this of one way to read nodes, and there is
one lemma for each way, up to the fields of a record (`isField_iff`) and the record (`isRecord`).
-/

namespace PrefixRanking.Yaml

variable {α β : Type} {R : Node → Node → Prop}

/-- The same entries, up to a relation between nodes, in any order. -/
def SameEntries (R : Node → Node → Prop) (es es' : List (Node × Node)) : Prop :=
  ∃ mid, es.Perm mid ∧ List.Forall₂ (fun e e' => R e.1 e'.1 ∧ R e.2 e'.2) mid es'

/-- Nodes that differ at most in the order of entries, up to a relation between the nodes in them. -/
inductive Node.Alike (R : Node → Node → Prop) : Node → Node → Prop
  | scalar (s : Scalar) : Alike R (.scalar s) (.scalar s)
  | sequence (tag : Option String) {items items' : List Node} (h : List.Forall₂ R items items') :
      Alike R (.sequence tag items) (.sequence tag items')
  | mapping (tag : Option String) {es es' : List (Node × Node)} (h : SameEntries R es es') :
      Alike R (.mapping tag es) (.mapping tag es')
  | alias (m n : Nat) : Alike R (.alias m) (.alias n)
  | missing : Alike R .missing .missing

/-- Related nodes stand for nodes that are alike. -/
def Document.Rearranges (d d' : Document) (R : Node → Node → Prop) : Prop :=
  ∀ v v', R v v' → (d.resolve v).Alike R (d'.resolve v')

/-- Related nodes are read as the same values. -/
def Transfers (R : Node → Node → Prop) (S S' : Node → α → Prop) : Prop :=
  ∀ v v', R v v' → ∀ a, S v a ↔ S' v' a

theorem Node.Alike.refl (h : ∀ v, R v v) (v : Node) : v.Alike R v := by
  cases v with
  | scalar s => exact .scalar s
  | sequence tag items => exact .sequence tag (List.forall₂_same.mpr fun item _ => h item)
  | mapping tag es =>
      exact .mapping tag ⟨es, .refl es, List.forall₂_same.mpr fun e _ => ⟨h e.1, h e.2⟩⟩
  | «alias» n => exact .alias n n
  | missing => exact .missing

theorem Node.Alike.scalar_iff {v v' : Node} (h : v.Alike R v') (s : Scalar) :
    v = .scalar s ↔ v' = .scalar s := by
  cases h with
  | scalar => exact Iff.rfl
  | sequence | mapping | «alias» | missing => exact ⟨nofun, nofun⟩

/-- Each of the elements is related to one of the other list. -/
theorem exists_mem_of_forall₂ {S : α → β → Prop} {as : List α} {bs : List β}
    (h : List.Forall₂ S as bs) {a : α} (ha : a ∈ as) : ∃ b ∈ bs, S a b := by
  induction h with
  | nil => contradiction
  | @cons c b as bs hc _ ih =>
      cases ha with
      | head => exact ⟨b, List.mem_cons_self, hc⟩
      | tail _ ha =>
          obtain ⟨b', hb', hab⟩ := ih ha
          exact ⟨b', List.mem_cons_of_mem b hb', hab⟩

theorem Transfers.forall₂_iff {S S' : Node → α → Prop} (hS : Transfers R S S')
    {items items' : List Node} (hitems : List.Forall₂ R items items') (as : List α) :
    List.Forall₂ S items as ↔ List.Forall₂ S' items' as := by
  induction hitems generalizing as with
  | nil => rw [List.forall₂_nil_left_iff, List.forall₂_nil_left_iff]
  | cons hitem _ ih =>
      rw [List.forall₂_cons_left_iff, List.forall₂_cons_left_iff]
      simp only [hS _ _ hitem, ih]

namespace Document.Rearranges

variable {d d' : Document} (h : d.Rearranges d' R)

include h

/-! ## values -/

section

variable {v v' : Node} (hv : R v v')

include hv

theorem text?_eq : d.text? v = d'.text? v' := by
  have halike := h v v' hv
  rw [text?, text?]
  generalize d.resolve v = node, d'.resolve v' = node' at halike
  cases halike <;> rfl

theorem natural?_eq : d.natural? v = d'.natural? v' := by
  have halike := h v v' hv
  rw [natural?, natural?]
  generalize d.resolve v = node, d'.resolve v' = node' at halike
  cases halike <;> rfl

theorem isNull_iff : d.IsNull v ↔ d'.IsNull v' :=
  exists_congr fun s => and_congr_left fun _ => (h v v' hv).scalar_iff s

theorem isPresent_iff : d.IsPresent v ↔ d'.IsPresent v' := by
  have halike := h v v' hv
  rw [IsPresent, IsPresent]
  generalize d.resolve v = node, d'.resolve v' = node' at halike
  cases halike <;> rfl

end

theorem isText : Transfers R d.IsText d'.IsText := by
  intro v v' hv s
  rw [IsText, IsText, h.text?_eq hv]

theorem isUInt32 : Transfers R d.IsUInt32 d'.IsUInt32 := by
  intro v v' hv n
  rw [IsUInt32, IsUInt32, h.natural?_eq hv]

theorem isUInt64 : Transfers R d.IsUInt64 d'.IsUInt64 := by
  intro v v' hv n
  rw [IsUInt64, IsUInt64, h.natural?_eq hv]

theorem isOptional {S S' : Node → α → Prop} (hS : Transfers R S S') :
    Transfers R (d.IsOptional S) (d'.IsOptional S') := by
  intro v v' hv o
  rw [isOptional_iff, isOptional_iff, h.isNull_iff hv, h.isPresent_iff hv]
  simp only [hS v v' hv]

theorem isNamed (name : α → String) : Transfers R (d.IsNamed name) (d'.IsNamed name) := by
  intro v v' hv a
  have hscalar := (h v v' hv).scalar_iff
  constructor
  · intro hnamed
    cases hnamed with
    | text hs htag htext => exact .text ((hscalar _).mp hs) htag htext
    | tag hs htag hstyle htext => exact .tag ((hscalar _).mp hs) htag hstyle htext
  · intro hnamed
    cases hnamed with
    | text hs htag htext => exact .text ((hscalar _).mpr hs) htag htext
    | tag hs htag hstyle htext => exact .tag ((hscalar _).mpr hs) htag hstyle htext

theorem isList {S S' : Node → α → Prop} (hS : Transfers R S S') :
    Transfers R (d.IsList S) (d'.IsList S') := by
  intro v v' hv as
  have halike := h v v' hv
  constructor
  · intro hlist
    cases hlist with
    | void hs hvoid => exact .void ((halike.scalar_iff _).mp hs) hvoid
    | items hitems has =>
        rw [hitems] at halike
        generalize hnode : d'.resolve v' = node' at halike
        cases halike with
        | sequence _ halike => exact .items hnode ((hS.forall₂_iff halike as).mp has)
  · intro hlist
    cases hlist with
    | void hs hvoid => exact .void ((halike.scalar_iff _).mpr hs) hvoid
    | items hitems has =>
        rw [hitems] at halike
        generalize hnode : d.resolve v = node at halike
        cases halike with
        | sequence _ halike => exact .items hnode ((hS.forall₂_iff halike as).mpr has)

/-! ## mappings -/

section

variable {es es' : List (Node × Node)} (hes : SameEntries R es es')

include hes

theorem texts_perm : (es.map fun e => d.text? e.1).Perm (es'.map fun e => d'.text? e.1) := by
  obtain ⟨mid, hperm, hmid⟩ := hes
  have heq : (mid.map fun e => d.text? e.1) = es'.map fun e => d'.text? e.1 := by
    rw [← List.forall₂_eq_eq_eq, List.forall₂_map_left_iff, List.forall₂_map_right_iff]
    exact hmid.imp fun e e' he => h.text?_eq he.1
  exact heq ▸ hperm.map _

theorem keysAmong_iff (names : List String) : d.KeysAmong names es ↔ d'.KeysAmong names es' := by
  have hperm := h.texts_perm hes
  rw [Document.keysAmong_iff, Document.keysAmong_iff, hperm.nodup_iff]
  simp only [hperm.mem_iff]

/-- An entry has one of the same key on the other side, with a related value. -/
theorem exists_hasEntry {name : String} {v : Node} (hv : d.HasEntry es name v) :
    ∃ v', R v v' ∧ d'.HasEntry es' name v' := by
  obtain ⟨mid, hperm, hmid⟩ := hes
  obtain ⟨k, hmem, hk⟩ := hv
  obtain ⟨⟨k', v'⟩, hmem', hkk, hvv⟩ := exists_mem_of_forall₂ hmid (hperm.mem_iff.mp hmem)
  exact ⟨v', hvv, k', hmem', (h.text?_eq hkk).symm.trans hk⟩

theorem exists_hasEntry_of_hasEntry {name : String} {v' : Node} (hv : d'.HasEntry es' name v') :
    ∃ v, R v v' ∧ d.HasEntry es name v := by
  obtain ⟨mid, hperm, hmid⟩ := hes
  obtain ⟨k', hmem', hk'⟩ := hv
  obtain ⟨⟨k, v⟩, hmem, hkk, hvv⟩ := exists_mem_of_forall₂ hmid.flip hmem'
  exact ⟨v, hvv, k, hperm.mem_iff.mpr hmem, (h.text?_eq hkk).trans hk'⟩

/-- **A field** has the same value in related mappings. -/
theorem isField_iff {S S' : Node → α → Prop} (hS : Transfers R S S') (name : String)
    (default a : α) : d.IsField es name S default a ↔ d'.IsField es' name S' default a := by
  constructor
  · rintro ⟨hgiven, hmissing⟩
    refine ⟨fun v' hv' => ?_, fun hnone => hmissing fun v hv => ?_⟩
    · obtain ⟨v, hR, hv⟩ := h.exists_hasEntry_of_hasEntry hes hv'
      exact (hS v v' hR a).mp (hgiven v hv)
    · obtain ⟨v', _, hv'⟩ := h.exists_hasEntry hes hv
      exact hnone v' hv'
  · rintro ⟨hgiven, hmissing⟩
    refine ⟨fun v hv => ?_, fun hnone => hmissing fun v' hv' => ?_⟩
    · obtain ⟨v', hR, hv'⟩ := h.exists_hasEntry hes hv
      exact (hS v v' hR a).mpr (hgiven v' hv')
    · obtain ⟨v, _, hv⟩ := h.exists_hasEntry_of_hasEntry hes hv'
      exact hnone v hv

end

/-- **A record** is the same where its condition on the entries does not depend on their order. -/
theorem isRecord {P P' : List (Node × Node) → α → Prop}
    (hP : ∀ es es', SameEntries R es es' → ∀ a, P es a ↔ P' es' a) :
    Transfers R (d.IsRecord P) (d'.IsRecord P') := by
  intro v v' hv a
  have halike := h v v' hv
  have hnil : P [] a ↔ P' [] a := hP [] [] ⟨[], .nil, .nil⟩ a
  constructor
  · rintro ⟨es, hmapping, hes⟩
    cases hmapping with
    | void hs hvoid => exact ⟨[], .void ((halike.scalar_iff _).mp hs) hvoid, hnil.mp hes⟩
    | entries hentries =>
        rw [hentries] at halike
        generalize hnode : d'.resolve v' = node' at halike
        cases halike with
        | @mapping _ _ es' halike => exact ⟨es', .entries hnode, (hP es es' halike a).mp hes⟩
  · rintro ⟨es', hmapping, hes'⟩
    cases hmapping with
    | void hs hvoid => exact ⟨[], .void ((halike.scalar_iff _).mpr hs) hvoid, hnil.mpr hes'⟩
    | entries hentries =>
        rw [hentries] at halike
        generalize hnode : d.resolve v = node at halike
        cases halike with
        | @mapping _ es _ halike => exact ⟨es, .entries hnode, (hP es es' halike a).mpr hes'⟩

end Document.Rearranges

end PrefixRanking.Yaml
