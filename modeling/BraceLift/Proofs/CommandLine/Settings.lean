/-
Settings in any order.

Each setting changes a field of its own, so two of them can be made in
either order unless they set the same item or exclude each other
(`apply_comm`); only the anchor of the tail and the flag that switches
the tail off share a field. So settings without such a pair give the same
job in any order. One that only repeats what the standard job has can be
left out; a path has many spellings, so the job is then the same up to
the spelling of its paths (`job_agrees_of_perm`).
-/
import Mathlib.Data.List.Nodup
import Mathlib.Data.List.Pairwise
import BraceLift.CommandLine.Setting

namespace BraceLift

-- ============================================================= agreement

namespace Path

theorem agrees_iff (p q : Path) :
    p.agrees q = true
      ↔ p.isAbsolute = q.isAbsolute ∧ p.components = q.components := by
  simp [agrees]

theorem agrees_refl (p : Path) : p.agrees p = true :=
  (agrees_iff p p).2 ⟨rfl, rfl⟩

theorem agrees_symm {p q : Path} (h : p.agrees q = true) :
    q.agrees p = true := by
  rw [agrees_iff] at h ⊢
  exact ⟨h.1.symm, h.2.symm⟩

theorem agrees_trans {p q r : Path} (h : p.agrees q = true)
    (h' : q.agrees r = true) : p.agrees r = true := by
  rw [agrees_iff] at h h' ⊢
  exact ⟨h.1.trans h'.1, h.2.trans h'.2⟩

end Path

namespace Job

/-- Jobs ask for the same if they differ in the spelling of their paths
at most. -/
theorem agrees_iff (a b : Job) :
    a.agrees b = true
      ↔ a.source.agrees b.source = true ∧ a.output.agrees b.output = true
        ∧ { a with source := b.source, output := b.output } = b := by
  unfold agrees
  rw [Bool.and_eq_true, Bool.and_eq_true, decide_eq_true_eq, and_assoc]

theorem agrees_refl (a : Job) : a.agrees a = true :=
  (agrees_iff a a).2 ⟨a.source.agrees_refl, a.output.agrees_refl, rfl⟩

theorem agrees_symm {a b : Job} (h : a.agrees b = true) :
    b.agrees a = true := by
  obtain ⟨hsource, houtput, heq⟩ := (agrees_iff a b).1 h
  refine (agrees_iff b a).2
    ⟨Path.agrees_symm hsource, Path.agrees_symm houtput, ?_⟩
  rw [← heq]

theorem agrees_trans {a b c : Job} (h : a.agrees b = true)
    (h' : b.agrees c = true) : a.agrees c = true := by
  obtain ⟨hsource, houtput, heq⟩ := (agrees_iff a b).1 h
  obtain ⟨hsource', houtput', heq'⟩ := (agrees_iff b c).1 h'
  refine (agrees_iff a c).2 ⟨Path.agrees_trans hsource hsource',
    Path.agrees_trans houtput houtput', ?_⟩
  rw [← heq', ← heq]

end Job

namespace CommandLine

-- ============================================================= conflicts

theorem excludes_comm (a b : Item) : excludes a b = excludes b a := by
  unfold excludes
  rw [Bool.or_comm, Bool.and_comm, Bool.and_comm (a == _)]

instance : Std.Symm fun a b : Item => excludes a b = false :=
  ⟨fun a b h => (excludes_comm b a).trans h⟩

/-- Nothing conflicts if and only if no two items exclude each other. -/
theorem conflict?_eq_none_iff (items : List Item) :
    conflict? items = none
      ↔ items.Pairwise fun a b => excludes a b = false := by
  induction items with
  | nil => simp [conflict?]
  | cons item rest ih =>
      rw [conflict?, List.pairwise_cons, ← ih]
      cases hfind : rest.find? (excludes item) with
      | none =>
          rw [List.find?_eq_none] at hfind
          simp only [Bool.not_eq_true] at hfind
          exact ⟨fun h => ⟨hfind, h⟩, And.right⟩
      | some other =>
          refine iff_of_false nofun fun h => ?_
          have hnone := h.1 other (List.mem_of_find?_eq_some hfind)
          rw [List.find?_some hfind] at hnone
          cases hnone

/-- An order of the items without a conflict is as good as any other. -/
theorem conflict?_perm {xs ys : List Item} (hperm : xs.Perm ys)
    (h : conflict? xs = none) : conflict? ys = none := by
  rw [conflict?_eq_none_iff] at h ⊢
  exact hperm.pairwise h fun {a b} hab => (excludes_comm b a).trans hab

theorem conflict?_sublist {xs ys : List Item} (hsub : xs.Sublist ys)
    (h : conflict? ys = none) : conflict? xs = none := by
  rw [conflict?_eq_none_iff] at h ⊢
  exact h.sublist hsub

/-- Whether an item is of the tail: its anchor, or the flag that switches
it off. -/
def Item.IsOfTail (item : Item) : Prop :=
  item = .flag .noTail ∨ item = .valued .tailAnchor

/-- The two items of the tail exclude each other, and nothing else does. -/
theorem excludes_iff (a b : Item) :
    excludes a b = true ↔ a.IsOfTail ∧ b.IsOfTail ∧ a ≠ b := by
  simp only [excludes, Item.IsOfTail, Bool.or_eq_true, Bool.and_eq_true,
    beq_iff_eq]
  constructor
  · rintro (⟨rfl, rfl⟩ | ⟨rfl, rfl⟩) <;> simp
  · rintro ⟨rfl | rfl, rfl | rfl, hne⟩ <;> simp at hne ⊢

/-- A conflict is one between two of the items, in the order in which it
is reported. -/
theorem excludes_of_conflict? {items : List Item} {first second : Item}
    (h : conflict? items = some (first, second)) :
    excludes first second = true ∧ [first, second].Sublist items := by
  induction items with
  | nil => cases h
  | cons item rest ih =>
      rw [conflict?] at h
      cases hfind : rest.find? (excludes item) with
      | none =>
          rw [hfind] at h
          obtain ⟨hexcludes, hsub⟩ := ih h
          exact ⟨hexcludes, hsub.cons item⟩
      | some other =>
          rw [hfind] at h
          cases h
          have hin := List.mem_of_find?_eq_some hfind
          exact ⟨List.find?_some hfind,
            (List.singleton_sublist.2 hin).cons_cons _⟩

/-- Items conflict if both items of the tail are among them. -/
theorem exists_conflict? {items : List Item} (hflag : .flag .noTail ∈ items)
    (hanchor : .valued .tailAnchor ∈ items) :
    ∃ first second, conflict? items = some (first, second) := by
  cases hconflict : conflict? items with
  | some pair => exact ⟨pair.1, pair.2, rfl⟩
  | none =>
      have hfree := (conflict?_eq_none_iff items).1 hconflict
      have hpair := hfree.forall hflag hanchor Item.noConfusion
      cases hpair

/-- They do not if one item of the tail at most is among them. -/
theorem conflict?_of_lone {items : List Item} {lone : Item}
    (h : ∀ item ∈ items, item.IsOfTail → item = lone) :
    conflict? items = none := by
  cases hconflict : conflict? items with
  | none => rfl
  | some pair =>
      obtain ⟨hexcludes, hsub⟩ := excludes_of_conflict? hconflict
      obtain ⟨hfirst, hsecond, hne⟩ := (excludes_iff _ _).1 hexcludes
      have hlone := h pair.1 (hsub.subset (by simp)) hfirst
      have hlone' := h pair.2 (hsub.subset (by simp)) hsecond
      exact absurd (hlone.trans hlone'.symm) hne

/-- The source excludes nothing. -/
theorem conflict?_concat_source (items : List Item) :
    conflict? (items ++ [.source]) = conflict? items := by
  induction items with
  | nil => rfl
  | cons item rest ih =>
      have hnone : excludes item .source = false := by
        cases item <;> simp [excludes]
      rw [List.cons_append, conflict?, conflict?, List.find?_append, ih,
        List.find?_singleton, hnone]
      simp

/-- The flag for a verbose log excludes nothing. -/
theorem conflict?_verbose (items : List Item) :
    conflict? (.flag .verbose :: items) = conflict? items := by
  have hnone : items.find? (excludes (.flag .verbose)) = none :=
    List.find?_eq_none.2 fun _ _ => Bool.false_ne_true
  rw [conflict?, hnone]

namespace Setting

-- ============================================================== the order

/-- Two settings can be made in either order unless they set the same or
exclude each other. -/
theorem apply_comm {x y : Setting} (hitem : x.item ≠ y.item)
    (hfree : excludes x.item y.item = false) (job : Job) :
    apply (apply job x) y = apply (apply job y) x := by
  -- a pair sets one item, or is the tail and its flag, or has two fields
  rcases x with _ | _ | _ | _ | _ | _ | (_ | _ | _) <;>
    rcases y with _ | _ | _ | _ | _ | _ | (_ | _ | _) <;>
    first
      | rfl
      | exact absurd rfl hitem
      | cases hfree

/-- Settings of different items that do not conflict can be made in any
order. -/
theorem foldl_apply_perm {xs ys : List Setting} (hperm : xs.Perm ys)
    (hnodup : (xs.map item).Nodup) (hfree : conflict? (xs.map item) = none)
    (job : Job) : xs.foldl apply job = ys.foldl apply job := by
  have hfree' := (conflict?_eq_none_iff _).1 hfree
  refine hperm.foldl_eq' (fun x hx y hy job => ?_) job
  by_cases hitem : x.item = y.item
  · rw [List.inj_on_of_nodup_map hnodup hx hy hitem]
  · refine apply_comm hitem ?_ job
    exact hfree'.forall (List.mem_map_of_mem hx) (List.mem_map_of_mem hy)
      hitem

-- ========================================================== the defaults

/-- Jobs that ask for the same still do after a setting. -/
theorem apply_agrees {a b : Job} (h : a.agrees b = true) (s : Setting) :
    (apply a s).agrees (apply b s) = true := by
  obtain ⟨hsource, houtput, heq⟩ := (Job.agrees_iff a b).1 h
  have hsame := congrArg (apply · s) heq
  rw [Job.agrees_iff]
  cases s with
  | source path => exact ⟨path.agrees_refl, houtput, hsame⟩
  | output path => exact ⟨hsource, path.agrees_refl, hsame⟩
  | flag f => cases f <;> exact ⟨hsource, houtput, hsame⟩
  | _ => exact ⟨hsource, houtput, hsame⟩

theorem foldl_apply_agrees {a b : Job} (h : a.agrees b = true)
    (settings : List Setting) :
    (settings.foldl apply a).agrees (settings.foldl apply b) = true := by
  induction settings generalizing a b with
  | nil => exact h
  | cons s rest ih => exact ih (apply_agrees h s)

/-- Whether the setting only repeats what the standard job has. -/
def IsStandard (s : Setting) : Prop :=
  (apply Job.standard s).agrees Job.standard = true

instance (s : Setting) : Decidable s.IsStandard :=
  inferInstanceAs (Decidable (_ = true))

/-- Settings of the standard job can be left out. -/
theorem foldl_apply_standard {omitted : List Setting}
    (h : ∀ s ∈ omitted, s.IsStandard) :
    (omitted.foldl apply Job.standard).agrees Job.standard = true := by
  induction omitted with
  | nil => exact Job.standard.agrees_refl
  | cons s rest ih =>
      rw [List.forall_mem_cons] at h
      exact Job.agrees_trans (foldl_apply_agrees h.1 rest) (ih h.2)

theorem foldl_apply_same {omitted : List Setting}
    (h : ∀ s ∈ omitted, apply Job.standard s = Job.standard) :
    omitted.foldl apply Job.standard = Job.standard := by
  induction omitted with
  | nil => rfl
  | cons s rest ih =>
      rw [List.forall_mem_cons] at h
      rw [List.foldl_cons, h.1]
      exact ih h.2

/-- A path is the only setting of the standard job with two spellings. -/
theorem IsStandard.apply_eq {s : Setting} (h : s.IsStandard)
    (hsource : s.item ≠ .source)
    (houtput : ∀ path, s = .output path → path = Job.standard.output) :
    apply Job.standard s = Job.standard := by
  obtain ⟨-, -, heq⟩ := (Job.agrees_iff _ _).1 h
  cases s with
  | source path => exact absurd rfl hsource
  | output path =>
      rw [houtput path rfl]
      rfl
  | flag f => cases f <;> exact heq
  | _ => exact heq

/-- What is given of some settings asks for the same job as all of them,
in any order, if the others are those of the standard job. -/
theorem job_agrees_of_perm {given omitted all : List Setting}
    (hperm : (given ++ omitted).Perm all) (hnodup : (all.map item).Nodup)
    (hfree : conflict? (all.map item) = none)
    (hstandard : ∀ s ∈ omitted, s.IsStandard) :
    (job given).agrees (job all) = true
      ∧ ((∀ s ∈ omitted, apply Job.standard s = Job.standard) →
          job given = job all) := by
  have hfront : (omitted ++ given).Perm all :=
    List.perm_append_comm.trans hperm
  unfold job
  rw [foldl_apply_perm hfront.symm hnodup hfree, List.foldl_append]
  constructor
  · exact Job.agrees_symm
      (foldl_apply_agrees (foldl_apply_standard hstandard) given)
  · intro hsame
    rw [foldl_apply_same hsame]

-- ================================================================ the tail

/-- Settings of other items leave the anchor of the tail alone. -/
theorem tailAnchor_foldl {settings : List Setting}
    (h : ∀ s ∈ settings, ¬ s.item.IsOfTail) (start : Job) :
    (settings.foldl apply start).tailAnchor = start.tailAnchor := by
  induction settings generalizing start with
  | nil => rfl
  | cons s rest ih =>
      rw [List.forall_mem_cons] at h
      rw [List.foldl_cons, ih h.2]
      cases s with
      | tailAnchor anchor => exact absurd (.inr rfl) h.1
      | flag f =>
          cases f with
          | noTail => exact absurd (.inl rfl) h.1
          | strict | verbose => rfl
      | _ => rfl

/-- The only setting that is of the tail decides about its anchor, wherever
it stands. -/
theorem tailAnchor_job {settings : List Setting} {s : Setting}
    {anchor : Option Text} (hmem : s ∈ settings)
    (hnodup : (settings.map item).Nodup)
    (honly : ∀ x ∈ settings, x.item.IsOfTail → x.item = s.item)
    (hsets : ∀ start, (apply start s).tailAnchor = anchor) :
    (job settings).tailAnchor = anchor := by
  obtain ⟨before, after, rfl⟩ := List.append_of_mem hmem
  have hafter : ∀ x ∈ after, ¬ x.item.IsOfTail := by
    intro x hx htail
    have hsame := honly x (by simp [hx]) htail
    rw [List.map_append, List.map_cons, List.nodup_append,
      List.nodup_cons] at hnodup
    exact hnodup.2.1.1 (hsame ▸ List.mem_map_of_mem hx)
  rw [job, List.foldl_append, List.foldl_cons, tailAnchor_foldl hafter]
  exact hsets _

-- =========================================================== the verbosity

/-- The flag for a verbose log can be raised first or last. -/
theorem apply_verbose (job : Job) (s : Setting) :
    apply (apply job (.flag .verbose)) s
      = apply (apply job s) (.flag .verbose) := by
  cases s with
  | flag f => cases f <;> rfl
  | _ => rfl

theorem foldl_apply_verbose (settings : List Setting) (job : Job) :
    settings.foldl apply { job with verbose := true }
      = { settings.foldl apply job with verbose := true } := by
  induction settings generalizing job with
  | nil => rfl
  | cons s rest ih =>
      rw [List.foldl_cons, List.foldl_cons, ← ih]
      exact congrArg (rest.foldl apply) (apply_verbose job s)

/-- Only its flag makes a job verbose. -/
theorem verbose_apply (job : Job) (s : Setting) :
    (apply job s).verbose = true
      ↔ job.verbose = true ∨ s = .flag .verbose := by
  cases s with
  | flag f => cases f <;> simp [apply]
  | _ => simp [apply]

theorem verbose_job_iff (settings : List Setting) :
    (job settings).verbose = true ↔ .flag .verbose ∈ settings := by
  have hall : ∀ start : Job, (settings.foldl apply start).verbose = true
      ↔ start.verbose = true ∨ .flag .verbose ∈ settings := by
    induction settings with
    | nil => simp
    | cons s rest ih =>
        intro start
        rw [List.foldl_cons, ih, verbose_apply, List.mem_cons, or_assoc,
          @eq_comm _ s]
  exact (hall Job.standard).trans (or_iff_right (by decide))

end Setting

end CommandLine

end BraceLift
