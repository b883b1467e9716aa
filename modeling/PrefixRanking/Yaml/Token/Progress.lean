import PrefixRanking.Yaml.Token.State

/-!
# Every token but the last takes characters

A step leaves fewer characters, unless it reaches the end: `TokenState.length_lt_of_step?`.  One lemma for
each kind of token leads up to it.
-/

namespace PrefixRanking.Yaml

namespace TokenState

@[simp] theorem cursor_insert (s : TokenState) (n : Nat) (ts : List Token) :
    (s.insert n ts).cursor = s.cursor := rfl

@[simp] theorem cursor_openBlock (s : TokenState) (column number : Nat) (t : Token) :
    (s.openBlock column number t).cursor = s.cursor := by
  unfold openBlock; split <;> rfl

@[simp] theorem cursor_closeDeeper (s : TokenState) (column : Nat) :
    (s.closeDeeper column).cursor = s.cursor := by
  unfold closeDeeper; split <;> rfl

@[simp] theorem cursor_closeAll (s : TokenState) : s.closeAll.cursor = s.cursor := by
  unfold closeAll; split <;> rfl

theorem cursor_dropKey? {s t : TokenState} (h : s.dropKey? = some t) : t.cursor = s.cursor := by
  unfold dropKey? at h
  split at h
  · cases h
  · cases h; rfl

theorem cursor_saveKey? {s t : TokenState} (h : s.saveKey? = some t) : t.cursor = s.cursor := by
  unfold saveKey? at h
  split at h
  · obtain ⟨u, hu, h⟩ := Option.bind_eq_some_iff.1 h
    have hc := cursor_dropKey? hu
    cases h
    exact hc
  · cases h; rfl

theorem dropStale?_eq_some {s t : TokenState} (h : s.dropStale? = some t) :
    t.cursor = s.cursor ∧ t.ended = s.ended := by
  simp only [dropStale?] at h
  split at h
  · cases h
  · cases h; exact ⟨rfl, rfl⟩

theorem length_skipFrom_le (flow allowed comment : Bool) (pos : Position) (cs : List Char) :
    (skipFrom flow allowed comment pos cs).2.rest.length ≤ cs.length := by
  fun_induction skipFrom flow allowed comment pos cs with
  | case1 | case8 => exact Nat.le_refl _
  | case2 => simp only [List.length_cons]; omega
  | _ => rename_i ih; exact Nat.le_succ_of_le ih

theorem length_toNext_le (s : TokenState) : s.toNext.cursor.rest.length ≤ s.cursor.rest.length :=
  length_skipFrom_le ..

theorem length_forward_lt {s t : TokenState} {n : Nat} (ht : t.cursor = s.cursor) (hn : 0 < n)
    (hs : s.cursor.rest ≠ []) :
    (t.forward n).cursor.rest.length < s.cursor.rest.length := by
  have := List.length_pos_iff.2 hs
  simp only [forward, Cursor.length_forward, ht]
  omega

theorem ended_of_fetchEnd? {s t : TokenState} (h : s.fetchEnd? = some t) : t.ended = true := by
  obtain ⟨u, _, h⟩ := Option.bind_eq_some_iff.1 h
  cases h
  rfl

theorem length_lt_of_fetchDirective? {s t : TokenState} (h : s.fetchDirective? = some t)
    (hs : s.cursor.rest ≠ []) : t.cursor.rest.length < s.cursor.rest.length := by
  obtain ⟨u, hu, h⟩ := Option.bind_eq_some_iff.1 h
  obtain ⟨⟨d, c⟩, hd, h⟩ := Option.bind_eq_some_iff.1 h
  have hc := cursor_dropKey? hu
  rw [cursor_closeAll] at hc
  rw [hc] at hd
  have := directive?_lt hd hs
  cases h
  exact this

theorem length_lt_of_fetchMarker? {s t : TokenState} {m : Token} (h : s.fetchMarker? m = some t)
    (hs : s.cursor.rest ≠ []) : t.cursor.rest.length < s.cursor.rest.length := by
  obtain ⟨u, hu, h⟩ := Option.bind_eq_some_iff.1 h
  have hc := cursor_dropKey? hu
  rw [cursor_closeAll] at hc
  have := length_forward_lt (n := 3) hc (by decide) hs
  cases h
  exact this

theorem length_lt_of_fetchFlowStart? {s t : TokenState} {m : Token}
    (h : s.fetchFlowStart? m = some t) (hs : s.cursor.rest ≠ []) :
    t.cursor.rest.length < s.cursor.rest.length := by
  obtain ⟨u, hu, h⟩ := Option.bind_eq_some_iff.1 h
  have := length_forward_lt (n := 1) (cursor_saveKey? hu) (by decide) hs
  cases h
  exact this

theorem length_lt_of_fetchFlowEnd? {s t : TokenState} {m : Token}
    (h : s.fetchFlowEnd? m = some t) (hs : s.cursor.rest ≠ []) :
    t.cursor.rest.length < s.cursor.rest.length := by
  obtain ⟨u, hu, h⟩ := Option.bind_eq_some_iff.1 h
  have := length_forward_lt (n := 1) (cursor_dropKey? hu) (by decide) hs
  cases h
  exact this

theorem length_lt_of_fetchFlowEntry? {s t : TokenState} (h : s.fetchFlowEntry? = some t)
    (hs : s.cursor.rest ≠ []) : t.cursor.rest.length < s.cursor.rest.length := by
  obtain ⟨u, hu, h⟩ := Option.bind_eq_some_iff.1 h
  have := length_forward_lt (n := 1) (cursor_dropKey? hu) (by decide) hs
  cases h
  exact this

theorem length_lt_of_fetchBlockEntry? {s t : TokenState} (h : s.fetchBlockEntry? = some t)
    (hs : s.cursor.rest ≠ []) : t.cursor.rest.length < s.cursor.rest.length := by
  unfold fetchBlockEntry? at h
  split at h
  · cases h
  · obtain ⟨u, hu, h⟩ := Option.bind_eq_some_iff.1 h
    have hc := cursor_dropKey? hu
    rw [cursor_openBlock] at hc
    have := length_forward_lt (n := 1) hc (by decide) hs
    cases h
    exact this

theorem length_lt_of_fetchKey? {s t : TokenState} (h : s.fetchKey? = some t)
    (hs : s.cursor.rest ≠ []) : t.cursor.rest.length < s.cursor.rest.length := by
  unfold fetchKey? at h
  split at h
  · cases h
  · obtain ⟨u, hu, h⟩ := Option.bind_eq_some_iff.1 h
    have hc := cursor_dropKey? hu
    rw [cursor_openBlock] at hc
    have := length_forward_lt (n := 1) hc (by decide) hs
    cases h
    exact this

theorem length_lt_of_fetchValue? {s t : TokenState} (h : s.fetchValue? = some t)
    (hs : s.cursor.rest ≠ []) : t.cursor.rest.length < s.cursor.rest.length := by
  unfold fetchValue? at h
  split at h
  · cases h
    exact length_forward_lt (n := 1) (by simp [add]) (by decide) hs
  · split at h
    · cases h
    · cases h
      exact length_forward_lt (n := 1) (by simp [add]) (by decide) hs

theorem length_lt_of_fetchAnchor? {s t : TokenState} {token : String → Token}
    (h : s.fetchAnchor? token = some t) (hs : s.cursor.rest ≠ []) :
    t.cursor.rest.length < s.cursor.rest.length := by
  obtain ⟨u, hu, h⟩ := Option.bind_eq_some_iff.1 h
  obtain ⟨⟨name, c⟩, hn, h⟩ := Option.bind_eq_some_iff.1 h
  rw [cursor_saveKey? hu] at hn
  have := anchorName?_lt hn hs
  cases h
  exact this

theorem length_lt_of_fetchTag? {s t : TokenState} (h : s.fetchTag? = some t) :
    t.cursor.rest.length < s.cursor.rest.length := by
  obtain ⟨u, hu, h⟩ := Option.bind_eq_some_iff.1 h
  obtain ⟨⟨tag, c⟩, hn, h⟩ := Option.bind_eq_some_iff.1 h
  rw [cursor_saveKey? hu] at hn
  have := tag?_lt hn
  cases h
  exact this

theorem length_lt_of_fetchBlockScalar? {s t : TokenState} {folded : Bool}
    (h : s.fetchBlockScalar? folded = some t) (hs : s.cursor.rest ≠ []) :
    t.cursor.rest.length < s.cursor.rest.length := by
  obtain ⟨u, hu, h⟩ := Option.bind_eq_some_iff.1 h
  obtain ⟨⟨text, c⟩, hn, h⟩ := Option.bind_eq_some_iff.1 h
  have hle := blockScalar?_le hn
  have := length_forward_lt (n := 1) (cursor_dropKey? hu) (by decide) hs
  cases h
  exact Nat.lt_of_le_of_lt hle this

theorem length_lt_of_fetchQuoted? {s t : TokenState} {single : Bool}
    (h : s.fetchQuoted? single = some t) (hs : s.cursor.rest ≠ []) :
    t.cursor.rest.length < s.cursor.rest.length := by
  obtain ⟨u, hu, h⟩ := Option.bind_eq_some_iff.1 h
  obtain ⟨⟨text, c⟩, hn, h⟩ := Option.bind_eq_some_iff.1 h
  have hle := quotedFrom_le hn
  have := length_forward_lt (n := 1) (cursor_saveKey? hu) (by decide) hs
  cases h
  exact Nat.lt_of_le_of_lt hle this

theorem length_lt_of_fetchPlain? {s t : TokenState} {first : Char}
    (h : s.fetchPlain? first = some t) (hs : s.cursor.rest ≠ []) :
    t.cursor.rest.length < s.cursor.rest.length := by
  obtain ⟨u, hu, h⟩ := Option.bind_eq_some_iff.1 h
  obtain ⟨p, hn, h⟩ := Option.bind_eq_some_iff.1 h
  have hle := plainFrom_le hn
  have := length_forward_lt (n := 1) (cursor_saveKey? hu) (by decide) hs
  cases h
  exact Nat.lt_of_le_of_lt hle this

theorem or_of_ite_eq {α : Type} {p : Prop} [Decidable p] {a b c : α} (h : (if p then a else b) = c) :
    a = c ∨ b = c := by
  split at h
  · exact .inl h
  · exact .inr h

theorem length_lt_of_fetch? {s t : TokenState} (h : s.fetch? = some t) (ht : t.ended = false) :
    t.cursor.rest.length < s.cursor.rest.length := by
  unfold fetch? at h
  split at h
  · simp [ended_of_fetchEnd? h] at ht
  · next c rest hr =>
    have hs : s.cursor.rest ≠ [] := by simp [hr]
    rcases or_of_ite_eq h with h | h
    · exact length_lt_of_fetchDirective? h hs
    rcases or_of_ite_eq h with h | h
    · exact length_lt_of_fetchMarker? h hs
    rcases or_of_ite_eq h with h | h
    · exact length_lt_of_fetchMarker? h hs
    rcases or_of_ite_eq h with h | h
    · exact length_lt_of_fetchFlowStart? h hs
    rcases or_of_ite_eq h with h | h
    · exact length_lt_of_fetchFlowStart? h hs
    rcases or_of_ite_eq h with h | h
    · exact length_lt_of_fetchFlowEnd? h hs
    rcases or_of_ite_eq h with h | h
    · exact length_lt_of_fetchFlowEnd? h hs
    rcases or_of_ite_eq h with h | h
    · exact length_lt_of_fetchFlowEntry? h hs
    rcases or_of_ite_eq h with h | h
    · exact length_lt_of_fetchBlockEntry? h hs
    rcases or_of_ite_eq h with h | h
    · exact length_lt_of_fetchKey? h hs
    rcases or_of_ite_eq h with h | h
    · exact length_lt_of_fetchValue? h hs
    rcases or_of_ite_eq h with h | h
    · exact length_lt_of_fetchAnchor? h hs
    rcases or_of_ite_eq h with h | h
    · exact length_lt_of_fetchAnchor? h hs
    rcases or_of_ite_eq h with h | h
    · exact length_lt_of_fetchTag? h
    rcases or_of_ite_eq h with h | h
    · exact length_lt_of_fetchBlockScalar? h hs
    rcases or_of_ite_eq h with h | h
    · exact length_lt_of_fetchBlockScalar? h hs
    rcases or_of_ite_eq h with h | h
    · exact length_lt_of_fetchQuoted? h hs
    rcases or_of_ite_eq h with h | h
    · exact length_lt_of_fetchQuoted? h hs
    rcases or_of_ite_eq h with h | h
    · exact length_lt_of_fetchPlain? h hs
    cases h

/-- A step that does not reach the end leaves fewer characters. -/
theorem length_lt_of_step? {s t : TokenState} (h : s.step? = some t) (ht : t.ended = false) :
    t.cursor.rest.length < s.cursor.rest.length := by
  obtain ⟨u, hu, h⟩ := Option.bind_eq_some_iff.1 h
  obtain ⟨v, hv, h⟩ := Option.bind_eq_some_iff.1 h
  have hlast := dropStale?_eq_some h
  have hlt := length_lt_of_fetch? hv (by rw [← hlast.2]; exact ht)
  rw [cursor_closeDeeper, (dropStale?_eq_some hu).1] at hlt
  rw [hlast.1]
  exact Nat.lt_of_lt_of_le hlt s.length_toNext_le

end TokenState

end PrefixRanking.Yaml
