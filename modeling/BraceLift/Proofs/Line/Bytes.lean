/-
Outdenting a line by its bytes.

A machine that has a line in UTF-8 counts bytes: how many of the first
`width` are blanks, up to the first that is not one (`blankBytes`). If all
are, it cuts the line there, which it cannot do inside a character
(`outdentBytes?`).

It never has to. A blank is one byte, and no other character starts with
this byte (`encoding_blank`, `encoding_of_ne`). So the blanks that stand in
front are as many in bytes as in characters (`toNat_blankBytes`), the cut is
behind a blank (`isBoundary_of_le`), and what follows is the line outdented
(`outdentBytes?_bytes`), however often this is done
(`outdentBytesTimes?_bytes`).
-/
import BraceLift.Proofs.Line.Indent
import BraceLift.Proofs.Text.Encoding

namespace BraceLift

namespace Line

-- ================================================================ in bytes

/-- How many of the first `width` bytes are blanks, up to the first that is
not one; counted in words. -/
def blankBytes (width : UInt64) (b : ByteArray) : UInt64 :=
  .ofNat ((b.data.toList.take width.toNat).takeWhile (· == 0x20)).length

/-- Cuts `width` bytes off if these are all blanks. There is no result if
the cut is not between two characters. -/
def outdentBytes? (width : UInt64) (b : ByteArray) : Option ByteArray :=
  if blankBytes width b = width then Text.bytesFrom? b width.toNat
  else some b

/-- The same so many times; no result as soon as there is none once. -/
def outdentBytesTimes? (width : UInt64) : Nat → ByteArray → Option ByteArray
  | 0, b => some b
  | k + 1, b => (outdentBytes? width b).bind (outdentBytesTimes? width k)

-- ========================================================== blanks as bytes

/-- The byte of a blank. -/
theorem encoding_blank : String.utf8EncodeChar ' ' = [0x20] := by decide

/-- Any other character starts with another byte. -/
theorem encoding_of_ne {c : Char} (hc : c ≠ ' ') :
    ∃ first more, String.utf8EncodeChar c = first :: more ∧ first ≠ 0x20 := by
  have hcode : c.val.toNat ≠ 0x20 := fun h =>
    hc (Char.ext (UInt32.toNat_inj.1 h))
  have hbyte : ∀ n, n < 256 → n ≠ 0x20 → UInt8.ofNat n ≠ 0x20 := by
    intro n hlt hne
    rw [ne_eq, ← UInt8.toNat_inj, UInt8.toNat_ofNat_of_lt' hlt]
    exact hne
  fun_cases String.utf8EncodeChar c with
  | case1 code _ => exact ⟨_, _, rfl, hbyte _ (by omega) hcode⟩
  | case2 code _ _ => exact ⟨_, _, rfl, hbyte _ (by omega) (by omega)⟩
  | case3 code _ _ _ => exact ⟨_, _, rfl, hbyte _ (by omega) (by omega)⟩
  | case4 code _ _ _ => exact ⟨_, _, rfl, hbyte _ (by omega) (by omega)⟩

/-- A line starts with as many such bytes as it starts with blanks. -/
theorem length_takeWhile_bytes (line : Line) :
    (line.bytes.data.toList.takeWhile (· == 0x20)).length = line.indent := by
  rw [Text.toList_bytes]
  induction line with
  | nil => rfl
  | cons c rest ih =>
      rw [List.flatMap_cons]
      by_cases hc : c = ' '
      · subst hc
        rw [encoding_blank, indent_blank, List.singleton_append,
          List.takeWhile_cons_of_pos (by decide), List.length_cons, ih]
      · obtain ⟨first, more, hencoding, hne⟩ := encoding_of_ne hc
        rw [hencoding, List.cons_append, indent_of_ne hc,
          List.takeWhile_cons_of_neg (by simpa using hne), List.length_nil]

/-- The count of a machine is the indent of the line, as far as it counts. -/
theorem toNat_blankBytes (width : UInt64) (line : Line) :
    (blankBytes width line.bytes).toNat = min width.toNat line.indent := by
  have hlength : ((line.bytes.data.toList.take width.toNat).takeWhile
      (· == 0x20)).length = min width.toNat line.indent := by
    rw [← List.take_takeWhile, List.length_take, length_takeWhile_bytes]
  have hword := width.toNat_lt
  rw [blankBytes, hlength, UInt64.toNat_ofNat', Nat.mod_eq_of_lt]
  omega

/-- The machine cuts the line if it has `width` blanks in front. -/
theorem blankBytes_eq_iff (width : UInt64) (line : Line) :
    blankBytes width line.bytes = width ↔ width.toNat ≤ line.indent := by
  rw [← UInt64.toNat_inj, toNat_blankBytes]
  omega

-- ================================================================ outdented

/-- So many blanks take so many bytes. -/
theorem byteCount_replicate (n : Nat) :
    Text.byteCount (List.replicate n ' ') = n := by
  induction n with
  | zero => rfl
  | succ n ih =>
      rw [List.replicate_succ]
      show Char.utf8Size ' ' + Text.byteCount (List.replicate n ' ') = n + 1
      rw [ih]
      exact Nat.add_comm 1 n

/-- A line with `width` blanks in front is a text of so many bytes, and
behind it the line outdented. -/
theorem exists_front_of_le {width : Nat} {line : Line}
    (h : width ≤ line.indent) :
    ∃ front : Text, front.byteCount = width
      ∧ line = front ++ line.outdent width :=
  ⟨List.replicate width ' ', byteCount_replicate width,
    by rw [outdent_of_le h, replicate_append_drop h]⟩

/-- There is a boundary behind blanks. -/
theorem isBoundary_of_le {width : Nat} {line : Line}
    (h : width ≤ line.indent) :
    width ≤ line.bytes.size ∧ Text.IsBoundary line.bytes width := by
  obtain ⟨front, hcount, hsplit⟩ := exists_front_of_le h
  constructor
  · rw [Text.size_bytes, hsplit, Text.byteCount_append, hcount]
    exact Nat.le_add_right _ _
  · exact (Text.isBoundary_iff line width).2 ⟨front, _, hsplit, hcount⟩

/-- Outdenting the bytes of a line gives the bytes of the line outdented. -/
theorem outdentBytes?_bytes (width : UInt64) (line : Line) :
    outdentBytes? width line.bytes
      = some (line.outdent width.toNat).bytes := by
  unfold outdentBytes?
  by_cases h : width.toNat ≤ line.indent
  · rw [if_pos ((blankBytes_eq_iff width line).2 h)]
    obtain ⟨front, hcount, hsplit⟩ := exists_front_of_le h
    have hcut := Text.bytesFrom?_append front (line.outdent width.toNat)
    rwa [← hsplit, hcount] at hcut
  · rw [if_neg (mt (blankBytes_eq_iff width line).1 h),
      outdent_of_lt (Nat.lt_of_not_le h)]

/-- So it does any number of times. -/
theorem outdentBytesTimes?_bytes (width : UInt64) (k : Nat) (line : Line) :
    outdentBytesTimes? width k line.bytes
      = some (Text.bytes ((outdent width.toNat)^[k] line)) := by
  induction k generalizing line with
  | zero => rfl
  | succ k ih =>
      rw [outdentBytesTimes?, outdentBytes?_bytes, Option.bind_some, ih,
        Function.iterate_succ_apply]

/-- Let some bytes spell a line. If a machine counts `width` blanks in
front, it can cut there: this is within the bytes and between two
characters. The result is the bytes of the line without its first `width`
characters, all blanks, if it has so many in front, and of the line itself
if not. So it is any number of times. Each time takes `width` blanks away
and nothing else, until fewer are left; from then on, and not before, the
line stays as it is, after the first time if there were fewer than twice as
many. -/
theorem outdent_by_bytes (width : UInt64) {b : ByteArray} {line : Line}
    (hline : Text.ofBytes? b = some line) :
    (blankBytes width b = width →
        width.toNat ≤ b.size ∧ Text.IsBoundary b width.toNat)
      ∧ outdentBytes? width b = some (line.outdent width.toNat).bytes
      ∧ (width.toNat ≤ line.indent →
        List.replicate width.toNat ' ' ++ line.outdent width.toNat = line)
      ∧ (line.indent < width.toNat → line.outdent width.toNat = line)
      ∧ (∀ k, outdentBytesTimes? width k b
        = some (Text.bytes ((outdent width.toNat)^[k] line)))
      ∧ (0 < width.toNat →
        (∀ k, List.replicate
              (width.toNat * min k (line.indent / width.toNat)) ' '
            ++ (outdent width.toNat)^[k] line = line)
          ∧ (∀ k, (outdent width.toNat)^[k + 1] line
              = (outdent width.toNat)^[k] line
            ↔ line.indent / width.toNat ≤ k)
          ∧ ((line.outdent width.toNat).outdent width.toNat
              = line.outdent width.toNat
            ↔ line.indent < 2 * width.toNat)) := by
  obtain rfl := Text.ofBytes?_eq_some_iff.1 hline
  refine ⟨fun hcount => ?_, outdentBytes?_bytes width line, fun h => ?_,
    outdent_of_lt, fun k => outdentBytesTimes?_bytes width k line,
    fun hwidth => ⟨replicate_append_iterate hwidth line,
      outdent_stable_iff hwidth line, outdent_twice_iff hwidth line⟩⟩
  · exact isBoundary_of_le ((blankBytes_eq_iff width line).1 hcount)
  · rw [outdent_of_le h, replicate_append_drop h]

/-- Five blanks and a wide one, which takes three bytes. -/
def wideBlank : Line := "     \u3000x\n".toList

/-- Two blanks can be taken from it, and two more, but not a third time.
Nothing is taken by a width far beyond its length. -/
theorem outdent_by_bytes_wideBlank :
    Text.ofBytes? wideBlank.bytes = some wideBlank
      ∧ blankBytes 2 wideBlank.bytes = 2
      ∧ Text.IsBoundary wideBlank.bytes 2
      ∧ outdentBytes? 2 wideBlank.bytes
        = some (Text.bytes "   \u3000x\n".toList)
      ∧ 0 < (2 : UInt64).toNat
      ∧ (wideBlank.outdent 2).outdent 2 ≠ wideBlank.outdent 2
      ∧ (outdent 2)^[3] wideBlank = (outdent 2)^[2] wideBlank
      ∧ wideBlank.indent < (18446744073709551615 : UInt64).toNat
      ∧ wideBlank.outdent 18446744073709551615 = wideBlank := by
  have hline := Text.ofBytes?_bytes wideBlank
  have hcount : blankBytes 2 wideBlank.bytes = 2 :=
    (blankBytes_eq_iff 2 wideBlank).2 (by decide)
  have hfar : wideBlank.indent < (18446744073709551615 : UInt64).toNat := by
    decide
  obtain ⟨hsafe, hcut, -, -, -, hmany⟩ := outdent_by_bytes 2 hline
  obtain ⟨-, hstable, htwice⟩ := hmany (by decide)
  obtain ⟨-, -, -, hfew, -, -⟩ :=
    outdent_by_bytes 18446744073709551615 hline
  refine ⟨hline, hcount, (hsafe hcount).2, hcut, by decide, ?_, ?_, hfar,
    hfew hfar⟩
  · exact mt htwice.1 (by decide)
  · exact (hstable 2).2 (by decide)

end Line

end BraceLift
