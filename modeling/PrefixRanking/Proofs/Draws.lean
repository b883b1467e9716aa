import PrefixRanking.Drawing

/-!
# Draws

A draw moves the stream forward by at least one word, so streams left by different numbers of draws are
different (`Keystream.drop_inj`): the number of draws can be read off the stream that is left.

`Drawing.Uses` lists the draws a computation makes, one rule for each way a computation is put together.
They are the next scores of the stream, none skipped and none repeated (`Drawing.Uses.eq_take`), for every
computation to which the rules apply (`Drawing.Orderly`).
-/

namespace PrefixRanking

namespace Keystream

/-! ## positions -/

theorem le_firstAccepted (key : Key) (n position : Nat) :
    position ≤ (firstAccepted key n position).2 := by
  induction n generalizing position with
  | zero => exact Nat.le_refl position
  | succ n ih =>
      rw [firstAccepted]
      split
      · exact Nat.le_succ position
      · exact Nat.le_trans (Nat.le_succ position) (ih (position + 1))

/-- A search that looks at a word ends behind it. -/
theorem lt_firstAccepted (key : Key) (n position : Nat) :
    position < (firstAccepted key (n + 1) position).2 := by
  rw [firstAccepted]
  split
  · exact Nat.lt_succ_self position
  · exact le_firstAccepted key n (position + 1)

theorem position_lt_tail (s : Keystream) : s.position < s.tail.position := by
  have hp : period = (period - 1) + 1 := by decide
  rw [tail, hp]
  exact lt_firstAccepted s.key (period - 1) s.position

theorem position_add_le_drop (s : Keystream) (n : Nat) : s.position + n ≤ (s.drop n).position := by
  induction n generalizing s with
  | zero => exact Nat.le_refl _
  | succ n ih =>
      have ht := position_lt_tail s
      have hd := ih s.tail
      rw [drop]
      omega

/-- The stream never comes back to where it was. -/
theorem drop_eq_self_iff {s : Keystream} {n : Nat} : s.drop n = s ↔ n = 0 := by
  constructor
  · intro h
    have hp := position_add_le_drop s n
    rw [h] at hp
    omega
  · intro h
    rw [h, drop]

/-- Different numbers of draws leave different streams. -/
theorem drop_inj {s : Keystream} {m n : Nat} : s.drop m = s.drop n ↔ m = n := by
  constructor
  · intro h
    cases Nat.le_total m n with
    | inl hle =>
        obtain ⟨k, rfl⟩ := Nat.exists_eq_add_of_le hle
        rw [drop_add, eq_comm, drop_eq_self_iff] at h
        omega
    | inr hle =>
        obtain ⟨k, rfl⟩ := Nat.exists_eq_add_of_le hle
        rw [drop_add, drop_eq_self_iff] at h
        omega
  · intro h
    rw [h]

/-- Rows of `r` draws: one row and `n` more are `n + 1` rows. -/
theorem drop_succ_mul (s : Keystream) (n r : Nat) : (s.drop r).drop (n * r) = s.drop ((n + 1) * r) := by
  rw [← drop_add, Nat.succ_mul, Nat.add_comm]

/-! ## single draws -/

@[simp] theorem drop_zero (s : Keystream) : s.drop 0 = s := rfl

/-- Draw number `n` of a stream; the next one is number `0`. -/
def nth (s : Keystream) (n : Nat) : Score := (s.drop n).head

/-- Every draw lies between zero and the bound. -/
theorem mem_take_range {s : Keystream} {n : Nat} {d : Score} (h : d ∈ s.take n) :
    0 ≤ d.val ∧ d.val < bound := by
  induction n generalizing s with
  | zero => rw [take] at h; contradiction
  | succ n ih =>
      rw [take, List.mem_cons] at h
      cases h with
      | inl he => rw [he]; exact ⟨head_nonneg s, head_lt s⟩
      | inr ht => exact ih ht

end Keystream

namespace Drawing

variable {α β : Type}

/-- A result that is only put into another form. -/
theorem run_map (x : Drawing α) (f : α → β) (s : Keystream) :
    (x >>= fun a => pure (f a)).run s = ((x.run s).1.map f, (x.run s).2) := by
  rw [run_bind]
  cases x.run s with
  | mk r s' => cases r <;> rfl

/-! ## the draws of a computation -/

/-- `x.Uses s ds`: on the stream `s` the computation `x` makes the draws `ds`, in this order, and no
others. -/
inductive Uses : {α : Type} → Drawing α → Keystream → List Score → Prop
  | result {α : Type} (a : α) (s : Keystream) : Uses (pure a) s []
  | fail {α : Type} (e : SelectionError) (s : Keystream) : Uses (Drawing.fail e : Drawing α) s []
  | draw (s : Keystream) : Uses Drawing.draw s [s.head]
  | andThen {α β : Type} {x : Drawing α} {f : α → Drawing β} {s s' : Keystream} {a : α}
      {ds ds' : List Score} (hr : x.run s = (.ok a, s')) (hx : Uses x s ds)
      (hf : Uses (f a) s' ds') : Uses (x >>= f) s (ds ++ ds')
  | stop {α β : Type} {x : Drawing α} {f : α → Drawing β} {s s' : Keystream} {e : SelectionError}
      {ds : List Score} (hr : x.run s = (.error e, s')) (hx : Uses x s ds) : Uses (x >>= f) s ds

/-- **Draws are taken in turn**: what a computation draws is an initial segment of the stream, and the
stream it leaves begins behind that segment. -/
theorem Uses.eq_take {x : Drawing α} {s : Keystream} {ds : List Score} (h : x.Uses s ds) :
    ds = s.take ds.length ∧ (x.run s).2 = s.drop ds.length := by
  induction h with
  | result a s => exact ⟨rfl, rfl⟩
  | fail e s => exact ⟨rfl, rfl⟩
  | draw s => exact ⟨rfl, rfl⟩
  | @andThen α β x f s s' a ds ds' hr _ _ ihx ihf =>
      obtain ⟨hds, hs⟩ := ihx
      obtain ⟨hds', hs'⟩ := ihf
      rw [hr] at hs
      constructor
      · rw [List.length_append, Keystream.take_add, ← hds, ← hs, ← hds']
      · rw [bind_ok hr, hs', List.length_append, Keystream.drop_add, ← hs]
  | @stop α β x f s s' e ds hr _ ih =>
      refine ⟨ih.1, ?_⟩
      rw [bind_error hr, ← ih.2, hr]

/-- What a computation draws is known from the stream it leaves. -/
theorem Uses.eq_take_of_drop {x : Drawing α} {s : Keystream} {ds : List Score} {n : Nat}
    (h : x.Uses s ds) (hn : (x.run s).2 = s.drop n) : ds = s.take n := by
  have hl : ds.length = n := by
    rw [h.eq_take.2] at hn
    exact Keystream.drop_inj.mp hn
  rw [h.eq_take.1, hl]

/-- On every stream the draws of the computation are accounted for. -/
def Orderly (x : Drawing α) : Prop := ∀ s, ∃ ds, x.Uses s ds

/-- The draws of such a computation are known from the stream it leaves. -/
theorem Orderly.uses_take {x : Drawing α} (hx : x.Orderly) {s : Keystream} {n : Nat}
    (hn : (x.run s).2 = s.drop n) : x.Uses s (s.take n) := by
  obtain ⟨ds, hds⟩ := hx s
  have he := hds.eq_take_of_drop hn
  rwa [he] at hds

theorem orderly_pure (a : α) : (pure a : Drawing α).Orderly := fun s => ⟨[], .result a s⟩

theorem orderly_fail (e : SelectionError) : (Drawing.fail e : Drawing α).Orderly :=
  fun s => ⟨[], .fail e s⟩

theorem orderly_draw : Drawing.draw.Orderly := fun s => ⟨[s.head], .draw s⟩

theorem Orderly.bind {x : Drawing α} {f : α → Drawing β} (hx : x.Orderly)
    (hf : ∀ a, (f a).Orderly) : (x >>= f).Orderly := by
  intro s
  obtain ⟨ds, hds⟩ := hx s
  cases hr : x.run s with
  | mk r s' =>
      cases r with
      | ok a =>
          obtain ⟨ds', hds'⟩ := hf a s'
          exact ⟨ds ++ ds', .andThen hr hds hds'⟩
      | error e => exact ⟨ds, .stop hr hds⟩

theorem orderly_each {f : α → Drawing β} (hf : ∀ a, (f a).Orderly) (as : List α) :
    (each f as).Orderly := by
  induction as with
  | nil => exact orderly_pure []
  | cons a as ih => exact (hf a).bind fun b => ih.bind fun bs => orderly_pure (b :: bs)

end Drawing

end PrefixRanking
