/-
Replacing one text by another wherever it occurs.

Occurrences are taken from the left and do not overlap: once one is
found, the search goes on after it, so the text put in is never looked
at again. The empty text occurs before every character and at the end.
-/
import BraceLift.Text.Basic

namespace BraceLift.Text

/-- The search of `replaceAll`; `skip` characters are still covered by
the occurrence found last. -/
def replaceFrom (old new : Text) : Nat → Text → Text
  | _, [] => []
  | skip + 1, _ :: rest => replaceFrom old new skip rest
  | 0, c :: rest =>
      if old.isPrefixOf (c :: rest) then
        new ++ replaceFrom old new (old.length - 1) rest
      else c :: replaceFrom old new 0 rest

/-- Every occurrence of `old` replaced by `new`, from the left. -/
def replaceAll (t old new : Text) : Text :=
  if old = [] then t.flatMap (fun c => new ++ [c]) ++ new
  else replaceFrom old new 0 t

end BraceLift.Text
