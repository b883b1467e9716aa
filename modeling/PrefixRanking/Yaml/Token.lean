/-!
# Tokens of YAML text

A text is first divided into tokens.  The tokens that open and close block collections and announce keys
are not written as characters: they follow from indentation and from the colons behind keys.
-/

namespace PrefixRanking.Yaml

/-- How a scalar is written. -/
inductive Style where
  | plain
  | quoted
  | literal
  | folded
deriving DecidableEq

inductive Token where
  | versionDirective (major minor : Nat)
  | tagDirective (handle expansion : String)
  | documentStart
  | documentEnd
  | streamEnd
  | blockSequenceStart
  | blockMappingStart
  | blockEnd
  | flowSequenceStart
  | flowSequenceEnd
  | flowMappingStart
  | flowMappingEnd
  | blockEntry
  | flowEntry
  | key
  | value
  | alias (name : String)
  | anchor (name : String)
  | tag (handle suffix : String)
  | scalar (text : String) (style : Style)
deriving DecidableEq

end PrefixRanking.Yaml
