import PrefixRanking.Yaml.Token
import PrefixRanking.Yaml.Token.Scalar

/-!
# Anchors, aliases, tags and directives in YAML text

Each reader starts at the indicator of what it reads.
-/

namespace PrefixRanking.Yaml

/-- May the character follow the name of an anchor or alias? -/
def endsAnchor : Option Char → Bool
  | none => true
  | some c =>
    isBlank c || isBreak c || c = '?' || c = ':' || c = ',' || c = ']' || c = '}' || c = '%' ||
      c = '@' || c = '\x60'

/-- The name of an anchor or alias. -/
def anchorName? (c : Cursor) : Option (String × Cursor) :=
  let (name, c) := (c.forward 1).spanLine isWord
  if name.isEmpty || !endsAnchor c.rest.head? then none else some (String.ofList name, c)

theorem anchorName?_lt {c d : Cursor} {name : String} (h : anchorName? c = some (name, d))
    (hc : c.rest ≠ []) : d.rest.length < c.rest.length := by
  simp only [anchorName?] at h
  split at h
  · cases h
  · cases h
    have := Cursor.length_spanLine_le isWord (c.forward 1)
    have := List.length_pos_iff.2 hc
    simp only [Cursor.length_forward] at *
    omega

/-! ## Tags -/

/-- May the character occur in the suffix of a tag?  Inside angle brackets, and in a directive, the
comma and square brackets may as well. -/
def isTagChar (wide : Bool) (c : Char) : Bool :=
  isWord c ||
    [';', '/', '?', ':', '@', '&', '=', '+', '$', '.', '%', '!', '~', '*', '\'', '(', ')'].contains c ||
    (wide && (c = ',' || c = '[' || c = ']'))

/-- The octet that two digits stand for. -/
def octet? (a b : Char) : Option Nat := do return 16 * (← hexDigit? a) + (← hexDigit? b)

/-- The octets that percent signs and pairs of digits stand for, and the characters behind them, if each
sign is followed by digits. -/
def percentOctets? : List Char → Option (List Nat × List Char)
  | '%' :: a :: b :: rest => do
    let octet ← octet? a b
    let (more, rest) ← percentOctets? rest
    return (octet :: more, rest)
  | '%' :: _ => none
  | rest => some ([], rest)

theorem percentOctets?_le {cs rest : List Char} {octets : List Nat}
    (h : percentOctets? cs = some (octets, rest)) : rest.length ≤ cs.length := by
  fun_induction percentOctets? cs generalizing octets rest with
  | case1 a b cs ih =>
    obtain ⟨octet, _, h⟩ := Option.bind_eq_some_iff.1 h
    obtain ⟨⟨more, after⟩, hm, h⟩ := Option.bind_eq_some_iff.1 h
    cases h
    have := ih hm
    simp only [List.length_cons]
    omega
  | case2 => cases h
  | case3 => cases h; exact Nat.le_refl _

/-- The number of octets that belong to a leading one. -/
def trailing? (lead : Nat) : Option Nat :=
  if lead < 0x80 then some 0
  else if lead < 0xC0 then none
  else if lead < 0xE0 then some 1
  else if lead < 0xF0 then some 2
  else if lead < 0xF8 then some 3
  else none

/-- The character that a leading octet and those that belong to it stand for, if there is one and they
are the shortest way to write it. -/
def characterOfOctets? (lead : Nat) (trail : List Nat) : Option Char :=
  let first := if trail.isEmpty then lead else lead % (1 <<< (6 - trail.length))
  (character? (trail.foldl (fun n o => 64 * n + o % 64) first)).filter fun c =>
    c.utf8Size == trail.length + 1

/-- What octets stand for, if each leading octet has those that belong to it; it need not be a
character. -/
def decodeOctets? : List Nat → Option (List (Option Char))
  | [] => some []
  | lead :: rest =>
    match trailing? lead with
    | none => none
    | some n =>
      let trail := rest.take n
      if trail.length < n || !trail.all (fun o => 0x80 ≤ o && o < 0xC0) then none
      else do return characterOfOctets? lead trail :: (← decodeOctets? (rest.drop n))
termination_by octets => octets.length
decreasing_by simp only [List.length_drop, List.length_cons]; omega

/-- The suffix of a tag as written, with percent signs resolved. -/
def unescapeTag? : List Char → Option (List (Option Char))
  | [] => some []
  | '%' :: a :: b :: rest =>
    match octet? a b, _ : percentOctets? rest with
    | some octet, some (octets, after) => do
      return (← decodeOctets? (octet :: octets)) ++ (← unescapeTag? after)
    | _, _ => none
  | '%' :: _ => none
  | c :: rest => do return some c :: (← unescapeTag? rest)
termination_by cs => cs.length
decreasing_by
  · next h => have := percentOctets?_le h; simp only [List.length_cons]; omega
  · simp

/-- The text of a tag: it ends before a NUL, and NUL takes the place of what is no character. -/
def tagText (cs : List (Option Char)) : List Char :=
  (cs.takeWhile fun c => c != some '\x00').map fun c => c.getD '\x00'

/-- Read the suffix of a tag. -/
def tagSuffix? (wide : Bool) (c : Cursor) : Option (List Char × Cursor) := do
  let (written, c) := c.spanLine (isTagChar wide)
  return (tagText (← unescapeTag? written), c)

/-- Read the suffix of a tag, of one character at least as it is written. -/
def writtenSuffix? (wide : Bool) (c : Cursor) : Option (List Char × Cursor) :=
  if c.rest.head?.any (isTagChar wide) then tagSuffix? wide c else none

theorem tagSuffix?_le {wide : Bool} {c d : Cursor} {suffix : List Char}
    (h : tagSuffix? wide c = some (suffix, d)) : d.rest.length ≤ c.rest.length := by
  obtain ⟨s, _, h⟩ := Option.bind_eq_some_iff.1 h
  cases h
  exact Cursor.length_spanLine_le _ c

theorem writtenSuffix?_le {wide : Bool} {c d : Cursor} {suffix : List Char}
    (h : writtenSuffix? wide c = some (suffix, d)) : d.rest.length ≤ c.rest.length := by
  unfold writtenSuffix? at h
  split at h
  · exact tagSuffix?_le h
  · cases h

/-- Read a tag handle: `!`, `!!` or `!name!`.  The first part of a tag without handle, such as `!name`,
is read just so. -/
def tagHandle? (c : Cursor) : Option (List Char × Cursor) :=
  if c.rest.head? = some '!' then
    let (name, c) := (c.forward 1).spanLine isWord
    if c.rest.head? = some '!' then some ('!' :: name ++ ['!'], c.forward 1)
    else some ('!' :: name, c)
  else none

theorem tagHandle?_lt {c d : Cursor} {handle : List Char} (h : tagHandle? c = some (handle, d)) :
    d.rest.length < c.rest.length := by
  simp only [tagHandle?] at h
  split at h
  · next hc =>
    have hpos : 0 < c.rest.length := by
      cases hr : c.rest with
      | nil => simp [hr] at hc
      | cons x xs => simp
    have := Cursor.length_spanLine_le isWord (c.forward 1)
    simp only [Cursor.length_forward] at this
    split at h
    · cases h; simp only [Cursor.length_forward]; omega
    · cases h; omega
  · cases h

/-- Is this a handle with a name, or the double sign? -/
def isNamedHandle (handle : List Char) : Bool :=
  1 < handle.length && handle.getLast? == some '!'

/-- The handle and suffix of a tag, not yet looking at what follows. -/
def tagParts? (c : Cursor) : Option (String × String × Cursor) :=
  match c.rest with
  | '!' :: '<' :: _ => do
    let (suffix, c) ← writtenSuffix? true (c.forward 2)
    if c.rest.head? != some '>' then none
    else return ("", String.ofList suffix, c.forward 1)
  | _ => do
    let (handle, c) ← tagHandle? c
    if isNamedHandle handle then
      let (suffix, c) ← writtenSuffix? false c
      return (String.ofList handle, String.ofList suffix, c)
    else
      let (more, c) ← tagSuffix? false c
      let suffix := handle.drop 1 ++ more
      if suffix.isEmpty then return ("", "!", c) else return ("!", String.ofList suffix, c)

theorem tagParts?_lt {c d : Cursor} {handle suffix : String}
    (h : tagParts? c = some (handle, suffix, d)) : d.rest.length < c.rest.length := by
  unfold tagParts? at h
  split at h
  · next rest hr =>
    obtain ⟨⟨s, c₁⟩, h₁, h⟩ := Option.bind_eq_some_iff.1 h
    have hle := writtenSuffix?_le h₁
    dsimp only at h
    split at h
    · cases h
    · cases h
      simp only [Cursor.length_forward, hr, List.length_cons] at *
      omega
  · obtain ⟨⟨s, c₁⟩, h₁, h⟩ := Option.bind_eq_some_iff.1 h
    have hlt := tagHandle?_lt h₁
    dsimp only at h
    split at h
    · obtain ⟨⟨t, c₂⟩, h₂, h⟩ := Option.bind_eq_some_iff.1 h
      have hle := writtenSuffix?_le h₂
      cases h
      exact Nat.lt_of_le_of_lt hle hlt
    · obtain ⟨⟨t, c₂⟩, h₂, h⟩ := Option.bind_eq_some_iff.1 h
      have hle := tagSuffix?_le h₂
      dsimp only at h
      split at h
      · cases h; omega
      · cases h; omega

/-- Read a tag.  A blank, a line break, the end of the text or, in a flow collection, a comma follows. -/
def tag? (flow : Bool) (c : Cursor) : Option (Token × Cursor) := do
  let (handle, suffix, c) ← tagParts? c
  if blankOrEnd c.rest.head? || (flow && c.rest.head? == some ',') then
    return (.tag handle suffix, c)
  else none

/-- What is left behind a tag is shorter than what it was read from. -/
theorem tag?_lt {flow : Bool} {c d : Cursor} {t : Token} (h : tag? flow c = some (t, d)) :
    d.rest.length < c.rest.length := by
  obtain ⟨⟨handle, suffix, c₁⟩, h₁, h⟩ := Option.bind_eq_some_iff.1 h
  have hlt := tagParts?_lt h₁
  dsimp only at h
  split at h
  · cases h; exact hlt
  · cases h

/-! ## Directives -/

/-- A number in a version, of nine digits at most. -/
def versionNumber? (c : Cursor) : Option (Nat × Cursor) :=
  let (digits, c) := c.spanLine Char.isDigit
  if digits.isEmpty || 9 < digits.length then none
  else some (digits.foldl (fun n d => 10 * n + (d.toNat - 48)) 0, c)

theorem versionNumber?_le {c d : Cursor} {n : Nat} (h : versionNumber? c = some (n, d)) :
    d.rest.length ≤ c.rest.length := by
  simp only [versionNumber?] at h
  split at h
  · cases h
  · cases h; exact Cursor.length_spanLine_le _ c

/-- Read a directive: a version or the expansion of a tag handle, alone on its line. -/
def directive? (c : Cursor) : Option (Token × Cursor) := do
  let (name, c) := (c.forward 1).spanLine isWord
  if name.isEmpty || !blankOrEnd c.rest.head? then none
  else if String.ofList name = "YAML" then
    let (major, c) ← versionNumber? c.skipBlanks
    if c.rest.head? != some '.' then none
    else
      let (minor, c) ← versionNumber? (c.forward 1)
      return (.versionDirective major minor, ← c.endLine?)
  else if String.ofList name = "TAG" then
    let (handle, c) ← tagHandle? c.skipBlanks
    if !(isNamedHandle handle || handle == ['!']) || !(c.rest.head?.any isBlank) then none
    else
      let (expansion, c) ← writtenSuffix? true c.skipBlanks
      if !blankOrEnd c.rest.head? then none
      else return (.tagDirective (String.ofList handle) (String.ofList expansion), ← c.endLine?)
  else none

/-- What is left behind a directive is shorter than what it was read from. -/
theorem directive?_lt {c d : Cursor} {t : Token} (h : directive? c = some (t, d))
    (hc : c.rest ≠ []) : d.rest.length < c.rest.length := by
  simp only [directive?] at h
  have hpos := List.length_pos_iff.2 hc
  have hname := Cursor.length_spanLine_le isWord (c.forward 1)
  generalize ((c.forward 1).spanLine isWord) = named at h hname
  obtain ⟨name, c₁⟩ := named
  have hblanks := Cursor.length_skipBlanks_le c₁
  simp only [Cursor.length_forward] at hname
  split at h
  · cases h
  · split at h
    · obtain ⟨⟨major, c₂⟩, h₂, h⟩ := Option.bind_eq_some_iff.1 h
      have := versionNumber?_le h₂
      split at h
      · cases h
      · obtain ⟨⟨minor, c₃⟩, h₃, h⟩ := Option.bind_eq_some_iff.1 h
        have := versionNumber?_le h₃
        obtain ⟨c₄, h₄, h⟩ := Option.bind_eq_some_iff.1 h
        have := Cursor.length_endLine?_le h₄
        cases h
        simp only [Cursor.length_forward] at *
        omega
    · split at h
      · obtain ⟨⟨handle, c₂⟩, h₂, h⟩ := Option.bind_eq_some_iff.1 h
        have := tagHandle?_lt h₂
        dsimp only at h this
        split at h
        · cases h
        · obtain ⟨⟨expansion, c₃⟩, h₃, h⟩ := Option.bind_eq_some_iff.1 h
          have := writtenSuffix?_le h₃
          have := Cursor.length_skipBlanks_le c₂
          dsimp only at h this
          split at h
          · cases h
          · obtain ⟨c₄, h₄, h⟩ := Option.bind_eq_some_iff.1 h
            have := Cursor.length_endLine?_le h₄
            cases h
            omega
      · cases h

end PrefixRanking.Yaml
