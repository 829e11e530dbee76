/-
Publishing a line twice.

Publishing takes the white space in front of a line away, and the second
time this is the white space in front of what the first time has put there.
So the marker alone decides what a second time does. A marker that does not
start with white space stays, and the line is left as it is
(`publish_publish`). A marker of nothing but white space is taken away, the
blank behind it as well, and both are put back (`publish_publish_of_blank`).
A marker that starts with white space and has a word behind it loses this
white space; what is left of it is not the marker, which is put in front
once more (`publish_publish_of_indented`).

`publish_twice_iff` gathers this. The first two kinds of marker are good for
every line, and the third, which is all that remains, is good for none.
-/
import BraceLift.Proofs.Block.Again

namespace BraceLift

namespace Text

/-- White space put in front of a text is gone once this is trimmed. -/
theorem trimStart_append_of_blank {s : Text}
    (hs : ∀ c ∈ s, isBlank c = true) (t : Text) :
    trimStart (s ++ t) = trimStart t :=
  List.dropWhile_append_of_pos hs

/-- What stands behind a word is not trimmed. -/
theorem trimStart_append_of_word {s : Text}
    (hs : ∃ c ∈ s, isBlank c = false) (t : Text) :
    trimStart (s ++ t) = trimStart s ++ t := by
  obtain ⟨blanks, hsplit, hblank, -⟩ := trimStart_split s
  have hne : trimStart s ≠ [] := by
    intro hnil
    rw [hnil, List.append_nil] at hsplit
    obtain ⟨c, hc, hword⟩ := hs
    rw [hsplit] at hc
    rw [hblank c hc] at hword
    cases hword
  unfold trimStart at hne ⊢
  rw [List.dropWhile_append, if_neg]
  rwa [List.isEmpty_iff]

/-- A trimmed text does not start with white space. -/
theorem isBlank_head_trimStart {t : Text} {c : Char}
    (hc : t.trimStart.head? = some c) : isBlank c = false := by
  obtain ⟨-, -, -, hword⟩ := trimStart_split t
  exact hword c hc

end Text

namespace Line

variable {marker : Text}

-- ==================================== markers that start with white space

section Indented

variable (hfront : ∃ c, marker.head? = some c ∧ Text.isBlank c = true)

include hfront

/-- No trimmed line starts with a marker that starts with white space, so
every line has it put in front. -/
theorem publish_of_indented (raw : Line) :
    raw.publish marker = marker ++ ' ' :: Text.trimStart raw := by
  obtain ⟨c, hc, hblank⟩ := hfront
  refine if_neg fun hmarker => ?_
  obtain ⟨rest, rfl⟩ := List.head?_eq_some_iff.1 hc
  obtain ⟨behind, hsplit⟩ := List.isPrefixOf_iff_prefix.1 hmarker
  have hhead : (Text.trimStart raw).head? = some c := by
    rw [← hsplit]
    rfl
  rw [Text.isBlank_head_trimStart hhead] at hblank
  cases hblank

variable (hword : ∃ c ∈ marker, Text.isBlank c = false)

include hword

/-- If the marker has a word in it, it is put in front of this word again. -/
theorem publish_publish_of_indented (raw : Line) :
    (raw.publish marker).publish marker
      = marker
        ++ ' ' :: (Text.trimStart marker ++ ' ' :: Text.trimStart raw) := by
  rw [publish_of_indented hfront, publish_of_indented hfront raw,
    Text.trimStart_append_of_word hword]

/-- So the line is longer the second time. -/
theorem publish_publish_ne (raw : Line) :
    (raw.publish marker).publish marker ≠ raw.publish marker := by
  intro heq
  have hlength := congrArg List.length heq
  rw [publish_publish_of_indented hfront hword, publish_of_indented hfront]
    at hlength
  simp only [List.length_append, List.length_cons] at hlength
  omega

end Indented

/-- Publishing with a marker of nothing but white space is done once and
for all. -/
theorem publish_publish_of_blank
    (hmarker : ∀ c ∈ marker, Text.isBlank c = true) (raw : Line) :
    (raw.publish marker).publish marker = raw.publish marker := by
  cases marker with
  | nil => exact publish_publish (by simp) raw
  | cons m rest =>
      have hfront : ∃ c, (m :: rest).head? = some c
          ∧ Text.isBlank c = true :=
        ⟨m, rfl, hmarker m List.mem_cons_self⟩
      have hblank : ∀ c ∈ m :: rest ++ [' '], Text.isBlank c = true := by
        intro c hc
        rcases List.mem_append.1 hc with hc | hc
        · exact hmarker c hc
        · rw [List.mem_singleton.1 hc]
          decide
      -- the marker goes with the blank behind it
      have htrim : Text.trimStart (raw.publish (m :: rest))
          = Text.trimStart raw := by
        rw [publish_of_indented hfront, List.append_cons,
          Text.trimStart_append_of_blank hblank,
          Text.trimStart_eq_self fun c => Text.isBlank_head_trimStart]
      rw [publish_of_indented hfront, htrim, ← publish_of_indented hfront]

-- ============================================================ all markers

/-- Publishing twice is publishing once, for every line, if and only if the
marker does not start with white space or is nothing but white space; with
any other marker it is not for any line. A published line starts with the
marker and ends with what follows the white space in front of the line. -/
theorem publish_twice_iff (marker : Text) :
    ((∀ raw : Line,
        (raw.publish marker).publish marker = raw.publish marker)
      ↔ (∀ c, marker.head? = some c → Text.isBlank c = false)
        ∨ ∀ c ∈ marker, Text.isBlank c = true)
      ∧ ((∃ c, marker.head? = some c ∧ Text.isBlank c = true) →
          (∃ c ∈ marker, Text.isBlank c = false) → ∀ raw : Line,
          (raw.publish marker).publish marker ≠ raw.publish marker)
      ∧ ∀ raw : Line, marker <+: raw.publish marker
        ∧ ∃ blanks body, raw = blanks ++ body
          ∧ (∀ c ∈ blanks, Text.isBlank c = true)
          ∧ (∀ c, body.head? = some c → Text.isBlank c = false)
          ∧ body <:+ raw.publish marker := by
  refine ⟨⟨fun htwice => ?_, ?_⟩, publish_publish_ne, fun raw => ?_⟩
  · by_cases hall : ∀ c ∈ marker, Text.isBlank c = true
    · exact .inr hall
    · refine .inl fun c hc => ?_
      have hword : ∃ d ∈ marker, Text.isBlank d = false := by simpa using hall
      cases hfront : Text.isBlank c with
      | false => rfl
      | true =>
          exact absurd (htwice []) (publish_publish_ne ⟨c, hc, hfront⟩ hword [])
  · rintro (hword | hblank)
    · exact publish_publish hword
    · exact publish_publish_of_blank hblank
  · obtain ⟨blanks, body, hsplit, hblank, hword, hshown⟩ :=
      published_publish marker raw
    refine ⟨prefix_publish marker raw, blanks, body, hsplit, hblank, hword, ?_⟩
    rcases hshown with ⟨-, hshown⟩ | ⟨-, hshown⟩
    · exact ⟨[], hshown.symm⟩
    · rw [hshown, List.append_cons]
      exact List.suffix_append _ _

/-- Put in front of a line that starts with it as it was read, a marker
that starts with white space stands there twice, and then three times. -/
theorem publish_twice_spacedMarker :
    (∃ c, " pub".toList.head? = some c ∧ Text.isBlank c = true)
      ∧ (∃ c ∈ " pub".toList, Text.isBlank c = false)
      ∧ publish " pub".toList " pub fn f\n".toList = " pub pub fn f\n".toList
      ∧ publish " pub".toList (publish " pub".toList " pub fn f\n".toList)
        ≠ publish " pub".toList " pub fn f\n".toList := by
  have hfront : ∃ c, " pub".toList.head? = some c ∧ Text.isBlank c = true :=
    ⟨' ', rfl, by decide⟩
  have hword : ∃ c ∈ " pub".toList, Text.isBlank c = false :=
    ⟨'p', by decide, by decide⟩
  exact ⟨hfront, hword, by decide,
    (publish_twice_iff " pub".toList).2.1 hfront hword _⟩

end Line

end BraceLift
