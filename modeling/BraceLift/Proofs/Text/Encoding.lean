/-
Texts and their bytes.

The bytes of a text spell this text and no other, and bytes that spell a
text are its bytes (`ofBytes?_eq_some_iff`). The bytes of two texts one
behind the other are theirs one behind the other (`bytes_append`). Bytes may
be divided where a character starts, and this is where the text itself may be
divided (`isBoundary_iff`); what follows there is the second part of the text
(`bytesFrom?_append`).
-/
import BraceLift.Text.Basic

namespace BraceLift

namespace Text

-- ================================================================ encoding

/-- The bytes of a text spell the text. -/
theorem ofBytes?_bytes (t : Text) : ofBytes? t.bytes = some t := by
  have hvalid : (String.ofList t).toUTF8.IsValidUTF8 :=
    (String.ofList t).isValidUTF8
  unfold ofBytes? bytes String.fromUTF8?
  rw [dif_pos hvalid]
  show some (String.ofList t).toList = some t
  rw [String.toList_ofList]

/-- Bytes that spell a text are the bytes of this text. -/
theorem ofBytes?_eq_some_iff {b : ByteArray} {t : Text} :
    ofBytes? b = some t ↔ b = t.bytes := by
  constructor
  · intro h
    unfold ofBytes? String.fromUTF8? at h
    split at h
    case isTrue hvalid =>
      obtain rfl := Option.some.inj h
      show b = (String.ofList (String.fromUTF8 b hvalid).toList).toUTF8
      rw [String.ofList_toList]
      rfl
    case isFalse => cases h
  · rintro rfl
    exact ofBytes?_bytes t

theorem bytes_eq (t : Text) : t.bytes = t.utf8Encode :=
  String.toByteArray_ofList

theorem bytes_append (s t : Text) : (s ++ t).bytes = s.bytes ++ t.bytes := by
  rw [bytes_eq, bytes_eq, bytes_eq, List.utf8Encode_append]

/-- The bytes of a text are those of its characters. -/
theorem toList_bytes (t : Text) :
    t.bytes.data.toList = t.flatMap String.utf8EncodeChar := by
  rw [bytes_eq, List.utf8Encode, List.data_toByteArray]

/-- They are as many as `byteCount` says. -/
theorem size_bytes (t : Text) : t.bytes.size = t.byteCount := by
  have hsize : t.bytes.size = t.bytes.data.toList.length := rfl
  rw [hsize, toList_bytes]
  induction t with
  | nil => rfl
  | cons c rest ih =>
      rw [List.flatMap_cons, List.length_append, String.length_utf8EncodeChar,
        ih rfl]
      rfl

-- ================================================================ dividing

/-- Whether an offset into the bytes of a text is between two characters: at
one of the ends, or in front of a byte that starts a character. -/
def IsBoundary (b : ByteArray) (n : Nat) : Prop :=
  n = 0 ∨ n = b.size ∨ ∃ h : n < b.size, b[n].IsUTF8FirstByte

instance (b : ByteArray) (n : Nat) : Decidable (IsBoundary b n) :=
  inferInstanceAs (Decidable (_ ∨ _ ∨ _))

/-- The boundaries in a text are the valid positions of a string. -/
theorem isBoundary_iff_isValid (t : Text) (n : Nat) :
    IsBoundary t.bytes n
      ↔ String.Pos.Raw.IsValid (String.ofList t) ⟨n⟩ := by
  constructor
  · rintro (rfl | rfl | ⟨hlt, hfirst⟩)
    · exact String.Pos.Raw.isValid_zero
    · exact String.Pos.Raw.isValid_iff_isUTF8FirstByte.2 (.inl rfl)
    · exact String.Pos.Raw.isValid_iff_isUTF8FirstByte.2 (.inr ⟨hlt, hfirst⟩)
  · intro hvalid
    rcases String.Pos.Raw.isValid_iff_isUTF8FirstByte.1 hvalid
      with hend | ⟨hlt, hfirst⟩
    · exact .inr (.inl (congrArg String.Pos.Raw.byteIdx hend))
    · exact .inr (.inr ⟨hlt, hfirst⟩)

/-- There is a boundary behind so many bytes if and only if some text in
front takes them. -/
theorem isBoundary_iff (t : Text) (n : Nat) :
    IsBoundary t.bytes n
      ↔ ∃ front rest : Text, t = front ++ rest ∧ front.byteCount = n := by
  rw [isBoundary_iff_isValid, String.Pos.Raw.isValid_ofList]
  constructor
  · rintro ⟨i, hi⟩
    exact ⟨t.take i, t.drop i, (List.take_append_drop i t).symm,
      (size_bytes _).symm.trans hi.symm⟩
  · rintro ⟨front, rest, rfl, rfl⟩
    refine ⟨front.length, ?_⟩
    rw [List.take_left]
    exact (size_bytes front).symm

/-- There is none inside a character of two bytes. -/
example : ¬ IsBoundary (bytes ['\u00e9']) 1 := by decide

/-- The bytes from an offset on, which must be between two characters. -/
def bytesFrom? (b : ByteArray) (n : Nat) : Option ByteArray :=
  if IsBoundary b n then some (b.extract n b.size) else none

/-- What follows the bytes of a first text is the bytes of the second. -/
theorem bytesFrom?_append (s t : Text) :
    bytesFrom? (s ++ t).bytes s.byteCount = some t.bytes := by
  have hboundary := (isBoundary_iff (s ++ t) s.byteCount).2 ⟨s, t, rfl, rfl⟩
  rw [bytesFrom?, if_pos hboundary, bytes_append,
    ByteArray.extract_append_eq_right (size_bytes s).symm ByteArray.size_append]

end Text

end BraceLift
