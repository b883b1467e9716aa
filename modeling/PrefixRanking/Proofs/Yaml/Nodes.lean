import PrefixRanking.Proofs.Yaml.Lines
import PrefixRanking.Yaml.Node.OfTokens

/-!
# Composing block mappings

What the tokens of an entry do to the block mapping that is open: they put the entry into it.  A sequence
at the column of its key has no end of its own: it is closed by what comes behind it (`feed_entries`).
-/

namespace PrefixRanking.Yaml

/-- A plain scalar without tag. -/
def Node.plain (s : String) : Node := .scalar ⟨s, .plain, none⟩

namespace Builder

/-- Within the root node, with these collections open and nothing waiting. -/
def inRoot (fs : List Frame) : Builder := ⟨.root, [], fs, .none, .empty⟩

/-- An open block mapping; the entries are held last one first. -/
def mappingFrame (entries : List (Node × Node)) (state : MappingState) : Frame :=
  ⟨.blockMapping entries state, none, none⟩

variable {es es' : List (Node × Node)} {fs : List Frame} {k : Node} {ts : List Token}

/-- One token. -/
theorem feed_cons {b b' : Builder} {t : Token} (h : (b.settle t).accept? t = some b') :
    b.feed (t :: ts) = b'.feed ts := by
  rw [feed, h]

theorem feed_start : start.feed (.blockMappingStart :: ts) = (inRoot [mappingFrame [] .entry]).feed ts :=
  rfl

theorem feed_key (name : String) :
    (inRoot (mappingFrame es .entry :: fs)).feed (Token.keyed name ++ ts) =
      (inRoot (mappingFrame es (.value (.plain name)) :: fs)).feed ts := by
  have hkey : (inRoot (mappingFrame es .entry :: fs)).feed (Token.keyed name ++ ts) =
      (inRoot (mappingFrame es .key :: fs)).feed (.scalar name .plain :: .value :: ts) :=
    feed_cons rfl
  have hname : (inRoot (mappingFrame es .key :: fs)).feed (.scalar name .plain :: .value :: ts) =
      (inRoot (mappingFrame es (.afterKey (.plain name)) :: fs)).feed (.value :: ts) :=
    feed_cons rfl
  rw [hkey, hname]
  exact feed_cons rfl

theorem feed_scalar (s : String) (style : Style) :
    (inRoot (mappingFrame es (.value k) :: fs)).feed (.scalar s style :: ts) =
      (inRoot (mappingFrame ((k, .scalar ⟨s, style, none⟩) :: es) .entry :: fs)).feed ts := rfl

theorem feed_emptySequence :
    (inRoot (mappingFrame es (.value k) :: fs)).feed (.flowSequenceStart :: .flowSequenceEnd :: ts) =
      (inRoot (mappingFrame ((k, .sequence none []) :: es) .entry :: fs)).feed ts := rfl

theorem feed_emptyMapping :
    (inRoot (mappingFrame es (.value k) :: fs)).feed (.flowMappingStart :: .flowMappingEnd :: ts) =
      (inRoot (mappingFrame ((k, .mapping none []) :: es) .entry :: fs)).feed ts := rfl

theorem feed_mappingStart :
    (inRoot (mappingFrame es (.value k) :: fs)).feed (.blockMappingStart :: ts) =
      (inRoot (mappingFrame [] .entry :: mappingFrame es (.value k) :: fs)).feed ts := rfl

theorem feed_mappingEnd :
    (inRoot (mappingFrame es' .entry :: mappingFrame es (.value k) :: fs)).feed (.blockEnd :: ts) =
      (inRoot (mappingFrame ((k, .mapping none es'.reverse) :: es) .entry :: fs)).feed ts := rfl

/-- A sequence that is open as the value of a key, at the column of the key; the items are held last one
first. -/
def sequenceFrame (items : List Node) : Frame := ⟨.flatSequence items false, none, none⟩

/-- Further entries of an open sequence.  What ends it is the next key, or the end of the mapping. -/
theorem feed_moreEntries (names : List String) (items : List Node) {t : Token}
    (ht : t = .key ∨ t = .blockEnd) :
    (inRoot (sequenceFrame items :: mappingFrame es (.value k) :: fs)).feed
        (names.flatMap Token.entry ++ t :: ts) =
      (inRoot (mappingFrame ((k, .sequence none (items.reverse ++ names.map Node.plain)) :: es)
        .entry :: fs)).feed (t :: ts) := by
  induction names generalizing items with
  | nil =>
      rw [List.map_nil, List.append_nil]
      rcases ht with rfl | rfl <;> rfl
  | cons name names ih =>
      have hstep : (inRoot (sequenceFrame items :: mappingFrame es (.value k) :: fs)).feed
          (Token.entry name ++ (names.flatMap Token.entry ++ t :: ts)) =
            (inRoot (sequenceFrame (.plain name :: items) :: mappingFrame es (.value k) :: fs)).feed
              (names.flatMap Token.entry ++ t :: ts) := rfl
      rw [List.flatMap_cons, List.append_assoc, hstep, ih, List.reverse_cons, List.append_assoc]
      rfl

/-- The entries of a sequence as the value of a key. -/
theorem feed_entries {names : List String} (hn : names ≠ []) {t : Token}
    (ht : t = .key ∨ t = .blockEnd) :
    (inRoot (mappingFrame es (.value k) :: fs)).feed (names.flatMap Token.entry ++ t :: ts) =
      (inRoot (mappingFrame ((k, .sequence none (names.map Node.plain)) :: es) .entry :: fs)).feed
        (t :: ts) := by
  cases names with
  | nil => exact absurd rfl hn
  | cons name names =>
      have hstep : (inRoot (mappingFrame es (.value k) :: fs)).feed
          (Token.entry name ++ (names.flatMap Token.entry ++ t :: ts)) =
            (inRoot (sequenceFrame [.plain name] :: mappingFrame es (.value k) :: fs)).feed
              (names.flatMap Token.entry ++ t :: ts) := rfl
      rw [List.flatMap_cons, List.append_assoc, hstep, feed_moreEntries names _ ht]
      rfl

theorem finish_feed_end :
    ((inRoot [mappingFrame es .entry]).feed [.blockEnd, .streamEnd]).finish =
      ⟨.mapping none es.reverse, [], true⟩ := rfl

end Builder

end PrefixRanking.Yaml
