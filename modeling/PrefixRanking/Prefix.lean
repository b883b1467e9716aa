/-!
# Prefixes

What is observed of a candidate prefix: three measurements and the set of identifiers it mentions.
`Identifiers` is a finite set of strings kept in strictly ascending order, so two sets with the same
members are equal and a fold over a set has one order.
-/

namespace PrefixRanking

/-- A finite set of identifiers, listed in strictly ascending order of code points. -/
structure Identifiers where
  toList : List String
  ascending : toList.Pairwise (· < ·)
deriving DecidableEq

namespace Identifiers

@[ext] theorem ext {a b : Identifiers} (h : a.toList = b.toList) : a = b := by
  cases a; cases b; cases h; rfl

/-- The empty set. -/
def empty : Identifiers := ⟨[], .nil⟩

/-- Put a string into an ascending list, unless it is there. -/
def insertSorted (s : String) : List String → List String
  | [] => [s]
  | t :: ts => if s < t then s :: t :: ts else if s = t then t :: ts else t :: insertSorted s ts

theorem mem_insertSorted {s x : String} {l : List String} :
    x ∈ insertSorted s l ↔ x = s ∨ x ∈ l := by
  induction l with
  | nil => simp [insertSorted]
  | cons t ts ih =>
    unfold insertSorted
    split
    · simp
    · split
      · next h => subst h; simp
      · simp only [List.mem_cons, ih]
        constructor
        · rintro (h | h | h) <;> simp [h]
        · rintro (h | h | h) <;> simp [h]

theorem lt_of_not_lt_of_ne {s t : String} (h : ¬ s < t) (hne : s ≠ t) : t < s :=
  String.not_le.1 fun hle => hne (String.le_antisymm hle (String.not_lt.1 h))

theorem pairwise_insertSorted (s : String) {l : List String} (h : l.Pairwise (· < ·)) :
    (insertSorted s l).Pairwise (· < ·) := by
  induction l with
  | nil => simp [insertSorted]
  | cons t ts ih =>
    have ht := List.pairwise_cons.1 h
    unfold insertSorted
    split
    · next hlt =>
      refine List.pairwise_cons.2 ⟨fun x hx => ?_, h⟩
      rcases List.mem_cons.1 hx with rfl | hx
      · exact hlt
      · exact String.lt_trans hlt (ht.1 x hx)
    · split
      · exact h
      · next hlt hne =>
        refine List.pairwise_cons.2 ⟨fun x hx => ?_, ih ht.2⟩
        rcases mem_insertSorted.1 hx with rfl | hx
        · exact lt_of_not_lt_of_ne hlt hne
        · exact ht.1 x hx

/-- The set with one more member. -/
def insert (ids : Identifiers) (s : String) : Identifiers :=
  ⟨insertSorted s ids.toList, pairwise_insertSorted s ids.ascending⟩

/-- The set of the strings in a list, whatever their order and repetitions. -/
def ofList (l : List String) : Identifiers := l.foldl insert empty

theorem mem_toList_insert {ids : Identifiers} {s x : String} :
    x ∈ (ids.insert s).toList ↔ x = s ∨ x ∈ ids.toList := mem_insertSorted

theorem mem_foldl_insert (l : List String) (ids : Identifiers) (x : String) :
    x ∈ (l.foldl insert ids).toList ↔ x ∈ l ∨ x ∈ ids.toList := by
  induction l generalizing ids with
  | nil => simp
  | cons s l ih =>
    rw [List.foldl_cons, ih, mem_toList_insert, List.mem_cons]
    constructor
    · rintro (h | h | h) <;> simp [h]
    · rintro ((h | h) | h) <;> simp [h]

/-- Building a set neither loses nor adds a member. -/
@[simp] theorem mem_toList_ofList {l : List String} {x : String} :
    x ∈ (ofList l).toList ↔ x ∈ l := by
  simp [ofList, mem_foldl_insert, empty]

end Identifiers

/-- The observations of one infeasible prefix. -/
structure Prefix where
  /-- Steps of the path. -/
  pathLength : UInt64
  /-- Decision-relevant steps. -/
  nontrivialLength : UInt64
  /-- Distance from the start to the state where infeasibility is first localised. -/
  pivotDepth : UInt64
  /-- Names mentioned anywhere in the prefix. -/
  identifiers : Identifiers
deriving DecidableEq

namespace Prefix

/-- The prefix without steps and identifiers. -/
def empty : Prefix := ⟨0, 0, 0, .empty⟩

/-- The same measurements with these identifiers. -/
def withIdentifiers (p : Prefix) (l : List String) : Prefix := { p with identifiers := .ofList l }

end Prefix

end PrefixRanking
