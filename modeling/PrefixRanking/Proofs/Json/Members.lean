import Mathlib.Data.List.Forall2
import Mathlib.Data.List.Induction
import PrefixRanking.Json.Read
import PrefixRanking.Proofs.Except

/-!
# Members and elements of JSON values

A member of an object is found wherever it stands, if no other one has its key (`member?_of_perm`), so what
is read of an object does not depend on the order of its members or on members of other keys
(`readMember_of_perm`).  A list is read item by item (`readList_eq_ok_iff`).
-/

namespace PrefixRanking.Json

variable {α : Type} {key : String} {members : List (String × Value)} {read : Value → Result α}

/-! ## members and elements -/

/-- Of the members of a key the last one counts. -/
theorem member?_eq_getLast? (key : String) (members : List (String × Value)) :
    member? key members = ((members.filter fun m => m.1 = key).getLast?).map Prod.snd := by
  induction members using List.reverseRecOn with
  | nil => rfl
  | append_singleton ms m ih =>
      rw [member?, List.foldl_append, List.filter_append]
      by_cases hm : m.1 = key
      · simp [hm]
      · rw [member?] at ih
        simp [hm, ih]

/-- Where the members of a key are those of an object with at most one of them, in whatever order, the same
member is found. -/
theorem member?_of_perm (only : Option Value)
    (h : (members.filter fun m => m.1 = key).Perm (only.toList.map fun v => (key, v))) :
    member? key members = only := by
  rw [member?_eq_getLast?]
  cases only with
  | none => rw [List.perm_nil.mp h]; rfl
  | some v => rw [List.perm_singleton.mp h]; rfl

/-- A part of a value is read where it is there. -/
theorem readPart_eq_ok_iff {part : Option Value} {o : Option α} :
    (match part with
      | some v => do return some (← read v)
      | none => .ok none : Result (Option α)) = .ok o ↔
      Option.Rel (fun v a => read v = .ok a) part o := by
  cases part with
  | none => cases o <;> simp
  | some v =>
      refine map_eq_ok_iff.trans ?_
      cases o <;> simp

theorem readMember_eq_ok_iff {o : Option α} :
    readMember key read members = .ok o ↔
      Option.Rel (fun v a => read v = .ok a) (member? key members) o :=
  readPart_eq_ok_iff

theorem readElement_eq_ok_iff {i : Nat} {elements : List Value} {o : Option α} :
    readElement i read elements = .ok o ↔ Option.Rel (fun v a => read v = .ok a) elements[i]? o :=
  readPart_eq_ok_iff

/-- What a member is read as when some of the members of an object are deleted, others of other keys are
added, and all are put in another order. -/
theorem readMember_of_perm {fields extra : List (String × Value)} {deleted : List String}
    (h : members.Perm (fields.filter (fun m => m.1 ∉ deleted) ++ extra))
    (hextra : ∀ m ∈ extra, m.1 ≠ key) {v : Value} {a : α}
    (hfield : (fields.filter fun m => m.1 = key) = [(key, v)]) (hv : read v = .ok a) :
    readMember key read members = .ok (if key ∈ deleted then none else some a) := by
  have hfilter := h.filter fun m => m.1 = key
  have hother : (extra.filter fun m => m.1 = key) = [] :=
    List.filter_eq_nil_iff.mpr fun m hm => by simpa using hextra m hm
  rw [List.filter_append, hother, List.append_nil, List.filter_comm, hfield] at hfilter
  rw [readMember_eq_ok_iff]
  by_cases hdeleted : key ∈ deleted
  · have hmember : member? key members = none := member?_of_perm none (by simpa [hdeleted] using hfilter)
    rw [hmember, if_pos hdeleted]
    exact .none
  · have hmember : member? key members = some v :=
      member?_of_perm (some v) (by simpa [hdeleted] using hfilter)
    rw [hmember, if_neg hdeleted]
    exact .some hv

/-! ## numbers -/

theorem readUInt64_toNat (expected : String) (n : UInt64) :
    readUInt64 expected (.integer n.toNat) = .ok n :=
  congrArg Except.ok UInt64.ofNat_toNat

/-! ## lists -/

/-- Items are read one by one. -/
theorem readItems_eq_ok_iff {vs : List Value} {as : List α} :
    readItems read vs = .ok as ↔ List.Forall₂ (fun v a => read v = .ok a) vs as := by
  induction vs generalizing as with
  | nil => simp [readItems, eq_comm]
  | cons v vs ih =>
      rw [readItems, bind_eq_ok_iff, List.forall₂_cons_left_iff]
      simp only [bind_eq_ok_iff, ih, pure_eq_ok_iff]
      constructor
      · rintro ⟨a, ha, as, has, rfl⟩
        exact ⟨a, as, ha, has, rfl⟩
      · rintro ⟨a, as, ha, has, rfl⟩
        exact ⟨a, ha, as, has, rfl⟩

/-- A list is an array whose elements are read one by one. -/
theorem readList_eq_ok_iff {v : Value} {as : List α} :
    readList read v = .ok as ↔ ∃ vs, v = .array vs ∧ List.Forall₂ (fun v a => read v = .ok a) vs as := by
  cases v with
  | array vs => simp [readList, readItems_eq_ok_iff]
  | _ => simp [readList]

/-- A list is read back if each of its items is. -/
theorem readList_map {write : α → Value} (h : ∀ a, read (write a) = .ok a) (as : List α) :
    readList read (.array (as.map write)) = .ok as := by
  refine readList_eq_ok_iff.mpr ⟨_, rfl, ?_⟩
  rw [List.forall₂_map_left_iff]
  exact List.forall₂_same.mpr fun a _ => h a

/-- A list of strings is an array of them. -/
theorem readTexts_eq_ok_iff {expected : String} {v : Value} {l : List String} :
    readList (readText expected) v = .ok l ↔ v = .array (l.map .string) := by
  have hitem (v : Value) (s : String) : readText expected v = .ok s ↔ v = .string s := by
    cases v <;> simp [readText]
  have hitems (vs : List Value) :
      List.Forall₂ (fun v s => readText expected v = .ok s) vs l ↔ vs = l.map .string := by
    simp only [hitem]
    rw [← List.forall₂_eq_eq_eq, List.forall₂_map_right_iff]
  simp [readList_eq_ok_iff, hitems]

end PrefixRanking.Json
