/-
A tail that is given its rules one by one.

Rules come in two kinds, and only one of them minds its place. A line is
dropped for what it was when it was read, so of the openings only the set
matters: not their order, not how often one is given, not the
substitutions in between. A substitution finds what those before it have
left, so the substitutions are made in the order in which they are given,
behind those the tail had to begin with. `withRules_eq` sorts the two
kinds apart, and `extract_congr` says what of a tail decides what it
takes; `extract_withRules` is both together.
-/
import BraceLift.Proofs.Block.Extent
import BraceLift.Proofs.Document.Compose

namespace BraceLift.Tail

/-- A rule that is given to a tail. -/
inductive Rule where
  /-- Lines that start with this are dropped, too. -/
  | dropping (opening : Text)
  /-- One more substitution is made. -/
  | replacing (old new : Text)

/-- The tail with one more rule. -/
def withRule (tail : Tail) : Rule → Tail
  | .dropping opening => tail.dropping opening
  | .replacing old new => tail.replacing old new

/-- The tail with some more rules, given one after the other. -/
def withRules (tail : Tail) (rules : List Rule) : Tail :=
  rules.foldl withRule tail

/-- The opening that a rule gives. -/
def Rule.opening? : Rule → Option Text
  | .dropping opening => some opening
  | .replacing .. => none

/-- The substitution that a rule gives. -/
def Rule.substitution? : Rule → Option Substitution
  | .dropping _ => none
  | .replacing old new => some ⟨old, new⟩

-- ======================================================== the two kinds

theorem mem_filterMap_opening? {rules : List Rule} {opening : Text} :
    opening ∈ rules.filterMap Rule.opening? ↔ .dropping opening ∈ rules := by
  rw [List.mem_filterMap]
  constructor
  · rintro ⟨rule, hmem, hopening⟩
    cases rule with
    | dropping _ =>
        cases hopening
        exact hmem
    | replacing _ _ => cases hopening
  · exact fun hmem => ⟨_, hmem, rfl⟩

/-- However the rules are mixed, each kind is put, in its order, behind
what the tail has of it. -/
theorem withRules_eq (tail : Tail) (rules : List Rule) :
    tail.withRules rules
      = ⟨tail.anchor, tail.openings ++ rules.filterMap Rule.opening?,
          tail.substitutions ++ rules.filterMap Rule.substitution?⟩ := by
  induction rules generalizing tail with
  | nil => simp [withRules]
  | cons rule rest ih =>
      have hrest : tail.withRules (rule :: rest)
          = (tail.withRule rule).withRules rest := rfl
      rw [hrest, ih]
      cases rule <;>
        simp [List.filterMap_cons, withRule, dropping, replacing,
          Rule.opening?, Rule.substitution?]

-- ====================================================== what decides

variable {a b : Tail}

/-- Of the openings only the set matters. -/
theorem drops_congr
    (h : ∀ opening, opening ∈ a.openings ↔ opening ∈ b.openings) :
    a.drops = b.drops := by
  funext line
  rw [Bool.eq_iff_iff, drops, drops, List.any_eq_true, List.any_eq_true]
  simp only [h]

/-- Tails with one anchor, one set of openings and the same substitutions
take the same from any lines, and record the same. -/
theorem extract_congr (hanchor : a.anchor = b.anchor)
    (hopenings : ∀ opening, opening ∈ a.openings ↔ opening ∈ b.openings)
    (hsubstitutions : a.substitutions = b.substitutions)
    (lines : List Line) : a.extract lines = b.extract lines := by
  have hdrops := drops_congr hopenings
  have hrestate : a.restate = b.restate := by
    funext line
    rw [restate, restate, hsubstitutions]
  have hkeep : a.keep = b.keep := by
    funext region
    rw [keep, keep, hdrops, hrestate]
  unfold extract
  rw [hanchor, hkeep, hdrops]

-- ======================================================= rules in any order

/-- Rules with one set of openings and the same substitutions in the same
order, however they are mixed and repeated, make of a tail two that take
the same from any lines. What they keep is the raw lines that are not
dropped, each with the substitutions made in it one after the other, on
what the ones before have left: first those of the tail, then those of the
rules. -/
theorem extract_withRules (start : Tail) {xs ys : List Rule}
    (hopenings : ∀ opening,
      Rule.dropping opening ∈ xs ↔ Rule.dropping opening ∈ ys)
    (hsubstitutions : xs.filterMap Rule.substitution?
      = ys.filterMap Rule.substitution?) :
    (∀ lines, (start.withRules xs).extract lines
        = (start.withRules ys).extract lines)
      ∧ ∀ lines excerpt,
        ((start.withRules xs).extract lines).value = .ok excerpt →
        ∃ i, Block.IsStart start.anchor lines i
          ∧ excerpt.lines
            = ((lines.drop i).filter (!(start.withRules xs).drops ·)).map
                fun line =>
                  (start.substitutions
                    ++ xs.filterMap Rule.substitution?).foldl
                    (fun text s => s.apply text) line := by
  constructor
  · intro lines
    refine extract_congr ?_ (fun opening => ?_) ?_ lines
    · rw [withRules_eq, withRules_eq]
    · simp only [withRules_eq, List.mem_append, mem_filterMap_opening?,
        hopenings]
    · rw [withRules_eq, withRules_eq, hsubstitutions]
  · intro lines excerpt h
    obtain ⟨-, i, hfound, rfl⟩ := extract_eq_ok_iff.1 h
    rw [withRules_eq] at hfound ⊢
    exact ⟨i, (Block.isStart_iff _ _ _).2 hfound, rfl⟩

/-- Rules of which each substitution finds what the one before it has
left, and which would drop what comes out in the end. -/
def feeding : List Rule :=
  [.dropping "b".toList, .replacing "bitflags!".toList "b!".toList,
    .dropping "a".toList, .replacing "b!".toList "a".toList,
    .dropping "b".toList]

/-- The same rules, the openings in another order and none twice. -/
def feedingSorted : List Rule :=
  [.dropping "a".toList, .dropping "b".toList,
    .replacing "bitflags!".toList "b!".toList,
    .replacing "b!".toList "a".toList]

/-- A line that only becomes one with an opening is kept. -/
theorem extract_feeding :
    (∀ opening, Rule.dropping opening ∈ feeding
        ↔ Rule.dropping opening ∈ feedingSorted)
      ∧ feeding.filterMap Rule.substitution?
        = feedingSorted.filterMap Rule.substitution?
      ∧ (∀ lines, ((standard "f".toList).withRules feeding).extract lines
        = ((standard "f".toList).withRules feedingSorted).extract lines)
      ∧ (((standard "f".toList).withRules feedingSorted).extract
            (["use f", "(bitflags::bitflags!) b!", " a", "b"].map
              String.toList)).value
        = .ok (.complete "f".toList ["(a) a".toList]) := by
  have hopenings : ∀ opening, Rule.dropping opening ∈ feeding
      ↔ Rule.dropping opening ∈ feedingSorted := by
    intro opening
    simp [feeding, feedingSorted]
    exact .inr
  have hsubstitutions : feeding.filterMap Rule.substitution?
      = feedingSorted.filterMap Rule.substitution? := rfl
  obtain ⟨hsame, -⟩ :=
    extract_withRules (standard "f".toList) hopenings hsubstitutions
  exact ⟨hopenings, hsubstitutions, hsame, by decide⟩

/-- Substitutions given the other way round are other rules. -/
example :
    ((verbatim []).withRules [.replacing ['a'] ['b'],
        .replacing ['b'] ['c']]).restate ['a'] = ['c']
      ∧ ((verbatim []).withRules [.replacing ['b'] ['c'],
        .replacing ['a'] ['b']]).restate ['a'] = ['b'] := by
  decide

end BraceLift.Tail
