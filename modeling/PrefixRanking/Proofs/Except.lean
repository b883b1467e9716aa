import Mathlib.Logic.Basic

/-!
# Computations that may fail

When a computation in steps succeeds, and with what: each of its steps does (`bind_eq_ok_iff`), and the last
one puts the result together (`map_eq_ok_iff`, `put_eq_ok_iff`).
-/

namespace PrefixRanking

variable {ε α β : Type}

theorem bind_eq_ok_iff {x : Except ε α} {f : α → Except ε β} {b : β} :
    (x >>= f) = .ok b ↔ ∃ a, x = .ok a ∧ f a = .ok b := by
  cases x with
  | error e => exact ⟨nofun, fun ⟨_, h, _⟩ => nomatch h⟩
  | ok a => exact ⟨fun h => ⟨a, rfl, h⟩, fun ⟨_, h, hb⟩ => by cases h; exact hb⟩

theorem pure_eq_ok_iff {a b : α} : (pure a : Except ε α) = .ok b ↔ a = b :=
  Except.ok.injEq a b ▸ Iff.rfl

theorem map_eq_ok_iff {x : Except ε α} {f : α → β} {b : β} :
    (do return f (← x)) = Except.ok b ↔ ∃ a, x = .ok a ∧ f a = b :=
  bind_eq_ok_iff.trans (exists_congr fun _ => and_congr_right fun _ => pure_eq_ok_iff)

/-- What is read is put into one part of a record, and the rest of the record is kept. -/
theorem put_eq_ok_iff {x : Except ε α} {put : α → β} {a : α} {b : β} {kept : Prop}
    (hput : ∀ c, put c = b ↔ c = a ∧ kept) :
    (do return put (← x)) = Except.ok b ↔ x = .ok a ∧ kept := by
  rw [map_eq_ok_iff]
  constructor
  · rintro ⟨c, hc, hb⟩
    obtain ⟨rfl, hkept⟩ := (hput c).mp hb
    exact ⟨hc, hkept⟩
  · rintro ⟨ha, hkept⟩
    exact ⟨a, ha, (hput a).mpr ⟨rfl, hkept⟩⟩

theorem map_eq_error_iff {x : Except ε α} {f : α → β} {e : ε} : x.map f = .error e ↔ x = .error e := by
  cases x <;> simp [Except.map]

end PrefixRanking
