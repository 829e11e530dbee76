/-
Text as a list of code points, and what the tool asks of it: does one
text begin with another, does it occur in another, where is it cut.

Everything the tool matches (anchors, markers, the openings of dropped
lines) is compared code point by code point, so `List Char` is the
right view: no normalization, no bytes, and every question is a
structural recursion.
-/

namespace BraceLift

/-- A text: its code points in order. -/
abbrev Text := List Char

/-- A line: a text that usually, but not always, ends with its newline. -/
abbrev Line := Text

namespace Text

/-- The number of bytes the text takes in UTF-8. -/
def byteCount (t : Text) : Nat :=
  t.foldr (fun c bytes => c.utf8Size + bytes) 0

@[simp] theorem byteCount_nil : byteCount [] = 0 := rfl

@[simp] theorem byteCount_append (s t : Text) :
    byteCount (s ++ t) = byteCount s + byteCount t := by
  induction s with
  | nil => simp
  | cons c rest ih =>
      show c.utf8Size + byteCount (rest ++ t)
        = c.utf8Size + byteCount rest + byteCount t
      omega

/-- The text in UTF-8. -/
def bytes (t : Text) : ByteArray :=
  (String.ofList t).toUTF8

/-- The text some bytes spell in UTF-8, if they spell one. -/
def ofBytes? (b : ByteArray) : Option Text :=
  (String.fromUTF8? b).map String.toList

-- ============================================================ occurrence

/-- `part.occursIn whole`: some stretch of `whole` is `part`. -/
def occursIn (part : Text) : Text → Bool
  | [] => part.isPrefixOf []
  | c :: rest => part.isPrefixOf (c :: rest) || occursIn part rest

/-- An occurrence is a stretch with text before and after it. -/
theorem occursIn_iff (part whole : Text) :
    part.occursIn whole = true ↔ part <:+: whole := by
  induction whole with
  | nil => simp [occursIn, List.isPrefixOf_iff_prefix]
  | cons c rest ih =>
      rw [occursIn, Bool.or_eq_true, ih,
        List.isPrefixOf_iff_prefix,
        List.infix_cons_iff]

/-- Whether one text comes before another in the order of code points. -/
def comesBefore (s t : Text) : Bool :=
  s.lex t fun c d => decide (c.toNat < d.toNat)

-- =============================================================== cutting

/-- The pieces between the separators; one more than there are
separators. -/
def splitOn (sep : Char) (t : Text) : List Text :=
  t.foldr
    (fun c pieces =>
      if c = sep then [] :: pieces
      else match pieces with
        | [] => [[c]]
        | piece :: more => (c :: piece) :: more)
    [[]]

/-- The pieces with the separator put back between them. -/
def joinWith (sep : Char) : List Text → Text
  | [] => []
  | [piece] => piece
  | piece :: more => piece ++ sep :: joinWith sep more

/-- Everything before the first separator, and what follows it if there
is one. -/
def cutAt (sep : Char) (t : Text) : Text × Option Text :=
  (t.takeWhile (· != sep), (t.dropWhile (· != sep)).tail?)

/-- The text cut after so many bytes; a character that the cut would
divide goes to the first part. -/
def cutAtByte : Nat → Text → Text × Text
  | 0, t => ([], t)
  | _ + 1, [] => ([], [])
  | n + 1, c :: rest =>
      let cut := cutAtByte (n + 1 - c.utf8Size) rest
      (c :: cut.1, cut.2)

end Text

end BraceLift
