import PrefixRanking.Preference
import PrefixRanking.Text.Lowercase

/-!
# Presets

A preset names a list of preferences that is commonly wanted.  Reading a preset's name ignores blank
characters around it and the case of ASCII letters.
-/

namespace PrefixRanking

/-- A named list of preferences. -/
inductive Preset where
  /-- No selection. -/
  | none
  /-- Cheap domains, then short prefixes. -/
  | domainGoodShort
  /-- Cheap domains, then long prefixes. -/
  | domainGoodLong
  /-- Expensive domains, then short prefixes. -/
  | domainBadShort
  /-- Expensive domains, then long prefixes. -/
  | domainBadLong
  /-- Cheap domains, then few decision-relevant steps, then short prefixes. -/
  | domainGoodWidthNarrowShort
deriving DecidableEq

namespace Preset

/-- Every preset, in listing order. -/
def all : List Preset :=
  [none, domainGoodShort, domainGoodLong, domainBadShort, domainBadLong, domainGoodWidthNarrowShort]

theorem mem_all (p : Preset) : p ∈ all := by cases p <;> decide

/-- The preset that is used unless another is given. -/
def default : Preset := none

/-- The list that a preset names. -/
def preferences : Preset → List Preference
  | none => Preference.noSelection
  | domainGoodShort => [.by .domain .min, .by .length .min]
  | domainGoodLong => [.by .domain .min, .by .length .max]
  | domainBadShort => [.by .domain .max, .by .length .min]
  | domainBadLong => [.by .domain .max, .by .length .max]
  | domainGoodWidthNarrowShort => [.by .domain .min, .by .width .min, .by .length .min]

/-- The name in configurations. -/
def name : Preset → String
  | none => "none"
  | domainGoodShort => "domain_good_short"
  | domainGoodLong => "domain_good_long"
  | domainBadShort => "domain_bad_short"
  | domainBadLong => "domain_bad_long"
  | domainGoodWidthNarrowShort => "domain_good_width_narrow_short"

/-- The name as one word in capitalised parts, such as `DomainGoodShort`. -/
def label (p : Preset) : String :=
  String.join ((Text.splitChars '_' p.name.toList).map fun
    | [] => ""
    | c :: cs => String.ofList (c.toUpper :: cs))

/-- The preset of exactly this name. -/
def ofName? (s : String) : Option Preset := all.find? (fun p => p.name == s)

theorem ofName?_name (p : Preset) : ofName? p.name = some p := by cases p <;> decide

/-- Read a name, whatever the case of its letters and the blank characters around it.  No other text has
the lower case form of a name: `Text.lowercase_eq_iff`. -/
def parse? (s : String) : Option Preset := ofName? (Text.lowercase (Text.trim s))

end Preset

end PrefixRanking
