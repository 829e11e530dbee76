/-
A tree of directories and files.

A location is the list of names that leads to it, innermost first, so
that its directory is the tail of the list and the root is the empty
list. The tree is the list of its entries in the order in which they
were made. No location occurs twice, and every entry lies in a
directory; both are part of the type, and the two changes there are
(`add` and `refill`) keep them.

What a change does to the tree is said by `at?` alone: `add` is seen at
the new location only (`at?_add`), `refill` at the file it fills
(`at?_refill`).
-/
import BraceLift.Text.Basic

namespace BraceLift

/-- A place in a file tree: the names on the way to it, innermost first. -/
abbrev Loc := List Text

/-- What there is at a place. -/
inductive Entry where
  | directory
  | file (content : ByteArray)

instance : DecidableEq Entry
  | .directory, .directory => .isTrue rfl
  | .directory, .file _ => .isFalse Entry.noConfusion
  | .file _, .directory => .isFalse Entry.noConfusion
  | .file b, .file c =>
      match ByteArray.instDecidableEq b c with
      | .isTrue h => .isTrue (congrArg Entry.file h)
      | .isFalse h => .isFalse fun heq => h (Entry.file.inj heq)

/-- What a list of entries puts at a place; the root is a directory. -/
def entryAt (entries : List (Loc × Entry)) : Loc → Option Entry
  | [] => some .directory
  | name :: above => entries.lookup (name :: above)

/-- A tree of directories and files. -/
@[ext] structure FileTree where
  /-- Where relative paths start. -/
  home : Loc
  /-- Every place but the root, in the order in which they were made. -/
  entries : List (Loc × Entry)
  /-- The root is no entry. -/
  rooted : ∀ e ∈ entries, e.1 ≠ []
  /-- No place occurs twice. -/
  nodup : (entries.map Prod.fst).Nodup
  /-- Every entry lies in a directory. -/
  sheltered : ∀ e ∈ entries, entryAt entries e.1.tail = some .directory

-- ========================================================= entry lists

private theorem notMem_of_lookup_eq_none {entries : List (Loc × Entry)}
    {loc : Loc} (h : entries.lookup loc = none) :
    loc ∉ entries.map Prod.fst := by
  intro hmem
  obtain ⟨e, he, heq⟩ := List.mem_map.1 hmem
  have hne := List.lookup_eq_none_iff.1 h e he
  simp [heq] at hne

private theorem entryAt_append (entries : List (Loc × Entry)) (loc l : Loc)
    (e : Entry) (hloc : loc ≠ []) (hnone : entryAt entries loc = none) :
    entryAt (entries ++ [(loc, e)]) l
      = if l = loc then some e else entryAt entries l := by
  match l with
  | [] => simp [entryAt, hloc.symm]
  | name :: above =>
      simp only [entryAt, List.lookup_append]
      by_cases h : name :: above = loc
      · subst h
        simp only [entryAt] at hnone
        simp [hnone]
      · have hb : (name :: above == loc) = false := by simpa using h
        rw [if_neg h, List.lookup_cons, hb]
        simp

/-- The entry with a new content if it is a file; a directory stays one. -/
def Entry.refill (content : ByteArray) : Entry → Entry
  | .directory => .directory
  | .file _ => .file content

/-- The entries after the file at a place is given a content. -/
def refillEntries (entries : List (Loc × Entry)) (loc : Loc)
    (content : ByteArray) : List (Loc × Entry) :=
  entries.map fun e =>
    if e.1 = loc then (e.1, e.2.refill content) else e

private theorem entryAt_refillEntries (entries : List (Loc × Entry))
    (loc l : Loc) (content : ByteArray) :
    entryAt (refillEntries entries loc content) l
      = if l = loc then (entryAt entries l).map (Entry.refill content)
        else entryAt entries l := by
  match l with
  | [] => by_cases h : ([] : Loc) = loc <;> simp [entryAt, h, Entry.refill]
  | name :: above =>
      simp only [entryAt, refillEntries]
      induction entries with
      | nil => simp
      | cons e more ih =>
          obtain ⟨k, x⟩ := e
          rw [List.map_cons]
          by_cases hk : k = loc
          · rw [if_pos hk, List.lookup_cons, List.lookup_cons, ih]
            by_cases hl : name :: above = k
            · simp [hl, hk]
            · have hb : (name :: above == k) = false := by simpa using hl
              rw [hb]
          · rw [if_neg hk, List.lookup_cons, List.lookup_cons, ih]
            by_cases hl : name :: above = k
            · have hne : name :: above ≠ loc := fun h => hk (hl ▸ h)
              simp [hl, hk]
            · have hb : (name :: above == k) = false := by simpa using hl
              rw [hb]

private theorem map_fst_refillEntries (entries : List (Loc × Entry))
    (loc : Loc) (content : ByteArray) :
    (refillEntries entries loc content).map Prod.fst
      = entries.map Prod.fst := by
  rw [refillEntries, List.map_map]
  refine List.map_congr_left fun e _ => ?_
  by_cases h : e.1 = loc <;> simp [h]

namespace FileTree

-- ================================================================= view

/-- What there is at a place. -/
def at? (tree : FileTree) (loc : Loc) : Option Entry :=
  entryAt tree.entries loc

/-- Whether there is a directory at a place. -/
def isDirectoryAt (tree : FileTree) (loc : Loc) : Bool :=
  tree.at? loc == some .directory

/-- The tree that holds nothing, relative paths starting at its root. -/
def empty : FileTree where
  home := []
  entries := []
  rooted := by simp
  nodup := by simp
  sheltered := by simp

@[simp] theorem at?_nil (tree : FileTree) :
    tree.at? [] = some .directory := rfl

/-- The directory of whatever there is is a directory. -/
theorem at?_tail {tree : FileTree} {loc : Loc} {e : Entry}
    (h : tree.at? loc = some e) : tree.at? loc.tail = some .directory := by
  match loc with
  | [] => rfl
  | name :: above =>
      have hmem : (name :: above) ∈ tree.entries.map Prod.fst := by
        apply Classical.byContradiction
        intro hno
        have hnone : tree.entries.lookup (name :: above) = none := by
          rw [List.lookup_eq_none_iff]
          intro p hp
          have hne : p.1 ≠ name :: above := fun heq =>
            hno (heq ▸ List.mem_map_of_mem hp)
          simpa using hne.symm
        rw [at?, entryAt, hnone] at h
        cases h
      obtain ⟨p, hp, heq⟩ := List.mem_map.1 hmem
      have := tree.sheltered p hp
      rwa [heq] at this

-- ============================================================== changes

/-- Adds an entry in a directory. Nothing changes unless the directory
is there and the place is free. -/
def add (tree : FileTree) (dir : Loc) (name : Text) (e : Entry) : FileTree :=
  if h : tree.at? dir = some .directory ∧ tree.at? (name :: dir) = none then
    { home := tree.home
      entries := tree.entries ++ [(name :: dir, e)]
      rooted := by
        intro x hx
        rcases List.mem_append.1 hx with hx | hx
        · exact tree.rooted x hx
        · rw [List.mem_singleton.1 hx]
          exact List.cons_ne_nil _ _
      nodup := by
        rw [List.map_append, List.nodup_append]
        refine ⟨tree.nodup, by simp, ?_⟩
        intro a ha b hb hab
        rw [List.map_singleton, List.mem_singleton] at hb
        subst hab hb
        exact notMem_of_lookup_eq_none h.2 ha
      sheltered := by
        intro x hx
        rw [entryAt_append _ _ _ _ (List.cons_ne_nil _ _) h.2]
        have hold : entryAt tree.entries x.1.tail = some .directory := by
          rcases List.mem_append.1 hx with hx | hx
          · exact tree.sheltered x hx
          · rw [List.mem_singleton.1 hx]
            exact h.1
        rw [if_neg]
        · exact hold
        · intro heq
          rw [heq] at hold
          exact absurd (hold.symm.trans h.2) (by simp) }
  else tree

/-- Gives the file at a place a content. Nothing changes if there is no
file. -/
def refill (tree : FileTree) (loc : Loc) (content : ByteArray) : FileTree where
  home := tree.home
  entries := refillEntries tree.entries loc content
  rooted := by
    intro x hx
    have hmem : x.1 ∈ tree.entries.map Prod.fst := by
      rw [← map_fst_refillEntries tree.entries loc content]
      exact List.mem_map_of_mem hx
    obtain ⟨y, hy, heq⟩ := List.mem_map.1 hmem
    exact heq ▸ tree.rooted y hy
  nodup := by
    rw [map_fst_refillEntries]
    exact tree.nodup
  sheltered := by
    intro x hx
    have hmem : x.1 ∈ tree.entries.map Prod.fst := by
      rw [← map_fst_refillEntries tree.entries loc content]
      exact List.mem_map_of_mem hx
    obtain ⟨y, hy, heq⟩ := List.mem_map.1 hmem
    have hold := tree.sheltered y hy
    rw [heq] at hold
    rw [entryAt_refillEntries, hold]
    split <;> rfl

@[simp] theorem home_add (tree : FileTree) (dir : Loc) (name : Text)
    (e : Entry) : (tree.add dir name e).home = tree.home := by
  unfold add
  split <;> rfl

@[simp] theorem home_refill (tree : FileTree) (loc : Loc)
    (content : ByteArray) : (tree.refill loc content).home = tree.home := rfl

/-- A new entry is seen at its place, and nothing else is. -/
theorem at?_add {tree : FileTree} {dir : Loc} {name : Text} (e : Entry)
    (hdir : tree.at? dir = some .directory)
    (hfree : tree.at? (name :: dir) = none) (loc : Loc) :
    (tree.add dir name e).at? loc
      = if loc = name :: dir then some e else tree.at? loc := by
  unfold add
  rw [dif_pos ⟨hdir, hfree⟩]
  exact entryAt_append _ _ _ _ (List.cons_ne_nil _ _) hfree

/-- A new content is seen in its file, and nothing else is. -/
theorem at?_refill (tree : FileTree) (loc : Loc) (content : ByteArray)
    (l : Loc) :
    (tree.refill loc content).at? l
      = if l = loc then (tree.at? l).map (Entry.refill content)
        else tree.at? l :=
  entryAt_refillEntries _ _ _ _

-- ============================================================== listing

/-- Whether one place comes before another or is it: names are compared
from the root on, and a directory comes before what it holds. -/
def listedBefore (a b : Loc × Entry) : Bool :=
  !b.1.reverse.lex a.1.reverse Text.comesBefore

/-- Every place but the root, each directory followed by what it holds,
the names in one directory in the order of their code points. -/
def listing (tree : FileTree) : List (Loc × Entry) :=
  tree.entries.mergeSort listedBefore

end FileTree

end BraceLift
