/-
Which lines a tail drops.

A line is looked at without the white space at either end, and this is
where an opening meets the trimming. In front no white space is left, so
an opening that starts with some opens no line. At the end, an opening
that ends with white space is cut into when nothing else follows it: it
opens a line only if more comes behind it than white space. `Opens` says
both, and `isPrefixOf_trim_iff` that nothing else is asked.

What carries it is that trimming stops at the last character that is no
white space: the text up to any such character stays
(`prefix_trimEnd_of_word`). `drops_exactly_opened` puts it together: what
is left of a region is, in order, the lines that no opening opens, and the
substitutions have no say in it.
-/
import BraceLift.Proofs.Block.Extent
import BraceLift.Proofs.Document.Compose

namespace BraceLift

namespace Text

-- ============================================================== trimming

/-- Whether some character of a text is no white space. -/
def HasWord (t : Text) : Prop :=
  ∃ c ∈ t, isBlank c = false

/-- The text up to a character that is no white space stays when the end
is trimmed. -/
theorem prefix_trimEnd_of_word {c : Char} (hc : isBlank c = false)
    (front back : Text) :
    front ++ [c] <+: (front ++ [c] ++ back).trimEnd := by
  obtain ⟨blanks, hsplit, hblank, -⟩ := trimEnd_split (front ++ [c] ++ back)
  rcases List.append_eq_append_iff.1 hsplit with ⟨more, hmore, -⟩
    | ⟨cut, hcut, hblanks⟩
  · exact ⟨more, hmore.symm⟩
  · -- a part of the text that is cut off would end with the character
    rcases List.eq_nil_or_concat cut with rfl | ⟨init, last, rfl⟩
    · rw [List.append_nil] at hcut
      exact ⟨[], (List.append_nil _).trans hcut⟩
    · rw [List.concat_eq_append, ← List.append_assoc] at hcut
      obtain ⟨-, hlast⟩ := List.append_inj' hcut rfl
      have hin : c ∈ blanks := by
        rw [hblanks, List.singleton_inj.1 hlast]
        simp
      rw [hblank c hin] at hc
      cases hc

/-- A text is in front of a text without the white space at its end if it
is in front of the text itself and is not cut into: it ends with a
character that is no white space, or one follows it. -/
theorem prefix_trimEnd_iff {part whole : Text} (hne : part ≠ []) :
    part <+: whole.trimEnd
      ↔ ∃ rest, whole = part ++ rest
        ∧ ((∃ c, part.getLast? = some c ∧ isBlank c = false)
          ∨ HasWord rest) := by
  constructor
  · rintro ⟨kept, hkept⟩
    obtain ⟨blanks, hsplit, -, hlast⟩ := trimEnd_split whole
    rw [← hkept, List.append_assoc] at hsplit
    refine ⟨kept ++ blanks, hsplit, ?_⟩
    rw [← hkept] at hlast
    cases hend : kept.getLast? with
    | none =>
        rw [List.getLast?_eq_none_iff.1 hend, List.append_nil] at hlast
        have hc := List.getLast?_eq_some_getLast hne
        exact .inl ⟨_, hc, hlast _ hc⟩
    | some c =>
        have hc := hlast c (by rw [List.getLast?_append, hend]; rfl)
        have hin := List.mem_of_getLast? hend
        exact .inr ⟨c, List.mem_append_left blanks hin, hc⟩
  · rintro ⟨rest, rfl, ⟨c, hend, hc⟩ | ⟨c, hin, hc⟩⟩
    · obtain ⟨front, rfl⟩ := List.getLast?_eq_some_iff.1 hend
      exact prefix_trimEnd_of_word hc front rest
    · obtain ⟨before, after, rfl⟩ := List.append_of_mem hin
      have hkept := prefix_trimEnd_of_word hc (part ++ before) after
      rw [List.append_assoc, List.append_assoc, List.append_assoc,
        List.singleton_append] at hkept
      exact (List.prefix_append _ _).trans hkept

end Text

namespace Tail

-- ============================================================== openings

/-- Whether a line is opened by a text. The empty text opens every line;
any other starts with a character that is no white space, stands in the
line behind the white space in front, and either ends with a character
that is no white space or has one behind it in the line. -/
def Opens (opening : Text) (line : Line) : Prop :=
  opening = []
    ∨ (∃ c, opening.head? = some c ∧ Text.isBlank c = false)
      ∧ ∃ rest, line.trimStart = opening ++ rest
        ∧ ((∃ c, opening.getLast? = some c ∧ Text.isBlank c = false)
          ∨ Text.HasWord rest)

/-- The texts in front of a line without its white space are those that
open it. -/
theorem isPrefixOf_trim_iff (opening : Text) (line : Line) :
    opening.isPrefixOf line.trim = true ↔ Opens opening line := by
  rw [List.isPrefixOf_iff_prefix]
  unfold Opens Text.trim
  by_cases hne : opening = []
  · exact iff_of_true (hne ▸ List.nil_prefix) (.inl hne)
  · rw [or_iff_right hne, Text.prefix_trimEnd_iff hne]
    refine ⟨fun h => ⟨?_, h⟩, And.right⟩
    -- no white space is left in front, so none is there to be matched
    obtain ⟨rest, hrest, -⟩ := h
    obtain ⟨-, -, -, hword⟩ := Text.trimStart_split line
    obtain ⟨c, more, rfl⟩ := List.exists_cons_of_ne_nil hne
    exact ⟨c, rfl, hword c (by rw [hrest]; rfl)⟩

instance (opening : Text) (line : Line) : Decidable (Opens opening line) :=
  decidable_of_iff _ (isPrefixOf_trim_iff opening line)

variable (tail : Tail)

/-- A line is dropped if some opening opens it. -/
theorem drops_iff (line : Line) :
    tail.drops line = true
      ↔ ∃ opening ∈ tail.openings, Opens opening line := by
  unfold drops
  simp only [List.any_eq_true, isPrefixOf_trim_iff]

/-- An import line has more than its opening, white space aside. -/
theorem opens_import_iff (line : Line) :
    Opens importOpening line
      ↔ ∃ rest, line.trimStart = importOpening ++ rest
        ∧ Text.HasWord rest := by
  constructor
  · rintro (hnil | ⟨-, rest, hrest, ⟨c, hlast, hc⟩ | hword⟩)
    · cases hnil
    · -- the opening itself ends with a space
      have hspace : some ' ' = some c := hlast
      cases hspace
      cases hc
    · exact ⟨rest, hrest, hword⟩
  · rintro ⟨rest, hrest, hword⟩
    exact .inr ⟨⟨'u', rfl, by decide⟩, rest, hrest, .inr hword⟩

-- =========================================================== the region

/-- What is kept of a region: the lines that no opening opens, in their
order, each changed by the substitutions. -/
theorem keep_eq_map_filter (region : List Line) :
    tail.keep region
      = (region.filter fun line =>
          ¬ ∃ opening ∈ tail.openings, Opens opening line).map
          tail.restate := by
  have hdrops : (!tail.drops ·) = fun line : Line =>
      decide (¬ ∃ opening ∈ tail.openings, Opens opening line) := by
    funext line
    rw [Bool.eq_iff_iff, decide_eq_true_eq, ← drops_iff, Bool.not_eq_true',
      Bool.not_eq_true]
  rw [keep, hdrops]

/-- A text is found in front of a line without its white space if it opens
the raw line, and a line is dropped if one of the openings does. So what a
tail makes of the lines from the first one with the anchor on, this one
being no exception, is those that none of them opens, in their order, each
changed. An import line is one with more behind its opening than white
space. -/
theorem drops_exactly_opened :
    (∀ opening line, opening.isPrefixOf (Text.trim line) = true
        ↔ Opens opening line)
      ∧ (∀ line, tail.drops line = true
        ↔ ∃ opening ∈ tail.openings, Opens opening line)
      ∧ (∀ lines i, tail.anchor ≠ [] → Block.IsStart tail.anchor lines i →
        (tail.extract lines).value
          = .ok (.complete tail.anchor
              (((lines.drop i).filter fun line =>
                ¬ ∃ opening ∈ tail.openings, Opens opening line).map
                tail.restate)))
      ∧ ∀ anchor line, (standard anchor).drops line = true
        ↔ ∃ rest, line.trimStart = importOpening ++ rest
          ∧ Text.HasWord rest := by
  refine ⟨isPrefixOf_trim_iff, tail.drops_iff, ?_, ?_⟩
  · intro lines i hne hstart
    have hfound := (Block.isStart_iff _ _ _).1 hstart
    rw [value_extract_found hne hfound, keep_eq_map_filter]
  · intro anchor line
    rw [drops_iff, ← opens_import_iff]
    simp [standard]

/-- A tail that makes imports of other lines. -/
def importing : Tail :=
  (standard "use a".toList).replacing "let ".toList "use ".toList

/-- Lines of which the second has its anchor. -/
def importsAndOthers : List Line :=
  ["x\n", " use a;\n", "\tuse \n", "let b;\n", "use c"].map String.toList

/-- The import with the anchor is dropped; an import that names nothing is
kept, and so is a line that only becomes an import. -/
theorem extract_importsAndOthers :
    importing.anchor ≠ []
      ∧ Block.IsStart importing.anchor importsAndOthers 1
      ∧ (importing.extract importsAndOthers).value
        = .ok (.complete "use a".toList
            ["\tuse \n".toList, "use b;\n".toList]) := by
  have hne : importing.anchor ≠ [] := by decide
  have hstart : Block.IsStart importing.anchor importsAndOthers 1 :=
    (Block.isStart_iff _ _ _).2 rfl
  obtain ⟨-, -, hextract, -⟩ := drops_exactly_opened importing
  refine ⟨hne, hstart, (hextract importsAndOthers 1 hne hstart).trans ?_⟩
  decide

end Tail

end BraceLift
