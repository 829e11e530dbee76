/-
An anchor for the tail, and the flag that leaves the tail out.

A job has one field for both, so of the two settings the later one would
win without a word. They are never both made: whoever gives both is told
so, in the order in which they were given, even if the anchor is the one
that the tail has anyway, and whatever else is given with them
(`parse_anchor_with_noTail`). With one of the two taken away the rest is
accepted, and the other one is what the job has.

Both halves go by the settings that the options are taken as
(`Given.exists_taken`). Their items are those of the options, so they hold
the pair that excludes each other, or lack one of it.
-/
import BraceLift.Proofs.CommandLine.Taking

namespace BraceLift.CommandLine

-- ====================================================== options as written

/-- An option in one argument. -/
inductive Given where
  /-- With its value attached. -/
  | valued (option : Valued) (value : Text)
  | flag (f : Flag)
  deriving DecidableEq

namespace Given

/-- The argument. -/
def argument : Given → Text
  | .valued option value => '-' :: '-' :: (option.name ++ '=' :: value)
  | .flag f => '-' :: '-' :: f.name

/-- What the option sets. -/
def item : Given → Item
  | .valued option _ => .valued option
  | .flag f => .flag f

/-- The setting that the option is read as. -/
def read : Given → Except Refusal Setting
  | .valued option value => Setting.ofValue option value
  | .flag f => .ok (.flag f)

/-- Whether the value, if there is one, is one that the option may have. -/
def IsValid (g : Given) : Prop :=
  ∃ s, g.read = .ok s

theorem spells_of_read {g : Given} {s : Setting} (h : g.read = .ok s) :
    Spells g.argument s ∧ s.item = g.item := by
  cases g with
  | valued option value => exact ⟨.valued h, item_of_ofValue h⟩
  | flag f =>
      cases h
      exact ⟨.flag f, rfl⟩

/-- Options with valid values are taken as settings of the same items, and
the setting of each is among them. -/
theorem exists_taken {given : List Given} (h : ∀ g ∈ given, g.IsValid) :
    ∃ made, List.Forall₂ Spells (given.map argument) made
      ∧ made.map Setting.item = given.map item
      ∧ ∀ g ∈ given, ∀ s, g.read = .ok s → s ∈ made := by
  induction given with
  | nil => exact ⟨[], .nil, rfl, List.forall_mem_nil _⟩
  | cons g rest ih =>
      rw [List.forall_mem_cons] at h
      obtain ⟨⟨s, hread⟩, hrest⟩ := h
      obtain ⟨made, hspells, hitems, hmem⟩ := ih hrest
      obtain ⟨hspell, hitem⟩ := spells_of_read hread
      refine ⟨s :: made, .cons hspell hspells, ?_, ?_⟩
      · rw [List.map_cons, List.map_cons, hitem, hitems]
      · rw [List.forall_mem_cons]
        refine ⟨fun s' hread' => ?_, fun g' hg' s' hread' => ?_⟩
        · rw [hread] at hread'
          cases hread'
          exact List.mem_cons_self ..
        · exact List.mem_cons_of_mem s (hmem g' hg' s' hread')

end Given

-- ================================================================ deciding

variable {given : List Given} {source? : Option Path}

/-- Options of different items with valid values come to what their
settings come to, with the one of the source behind them. -/
theorem parse_given (hvalid : ∀ g ∈ given, g.IsValid)
    (hnodup : (given.map Given.item).Nodup)
    (hsource : ∀ source ∈ source?, source.text ≠ []) :
    ∃ made, made.map Setting.item = given.map Given.item
      ∧ (∀ g ∈ given, ∀ s, g.read = .ok s → s ∈ made)
      ∧ parse (given.map Given.argument ++ sourceArguments source?)
        = verdict (made ++ (source?.map Setting.source).toList) := by
  obtain ⟨made, hspells, hitems, hmem⟩ := Given.exists_taken hvalid
  have htake := @Reading.takeAll_of_spells .start _ _ hspells rfl rfl
    (by rw [← hitems] at hnodup; exact hnodup)
  have hnew : .source ∉ made.map Setting.item := by
    rw [hitems, List.mem_map]
    rintro ⟨g, -, hitem⟩
    cases g <;> cases hitem
  exact ⟨made, hitems, hmem, parse_of_taken htake hnew hsource⟩

/-- The source excludes no option. -/
theorem conflict?_with_source (made : List Setting) (source? : Option Path) :
    conflict? ((made ++ (source?.map Setting.source).toList).map Setting.item)
      = conflict? (made.map Setting.item) := by
  cases source? with
  | none => simp
  | some source =>
      rw [← conflict?_concat_source (made.map Setting.item)]
      simp [Setting.item]

/-- The source has no say in the anchor of the tail. -/
theorem tailAnchor_with_source (made : List Setting)
    (source? : Option Path) :
    (Setting.job (made ++ (source?.map Setting.source).toList)).tailAnchor
      = (Setting.job made).tailAnchor := by
  unfold Setting.job
  rw [List.foldl_append, Setting.tailAnchor_foldl]
  intro s hs
  simp only [Option.mem_toList, Option.map_eq_some_iff] at hs
  obtain ⟨source, -, rfl⟩ := hs
  simp [Item.IsOfTail, Setting.item]

/-- Options of which both items of the tail are set are refused, and the
refusal names the two in the order in which they are given. -/
theorem parse_given_both (hvalid : ∀ g ∈ given, g.IsValid)
    (hnodup : (given.map Given.item).Nodup)
    (hsource : ∀ source ∈ source?, source.text ≠ [])
    (hflag : .flag .noTail ∈ given.map Given.item)
    (hanchor : .valued .tailAnchor ∈ given.map Given.item) :
    ∃ first second,
      parse (given.map Given.argument ++ sourceArguments source?)
          = .error (.exclusive first second)
        ∧ excludes first second = true
        ∧ [first, second].Sublist (given.map Given.item) := by
  obtain ⟨made, hitems, -, hparse⟩ := parse_given hvalid hnodup hsource
  obtain ⟨first, second, hconflict⟩ := exists_conflict? hflag hanchor
  refine ⟨first, second, hparse.trans ?_, excludes_of_conflict? hconflict⟩
  unfold verdict
  rw [conflict?_with_source, hitems, hconflict]

/-- Options of which one item of the tail is set are accepted, and the job
has what it is set to. -/
theorem parse_given_one {g : Given} {s : Setting} {anchor : Option Text}
    (hvalid : ∀ g ∈ given, g.IsValid)
    (hnodup : (given.map Given.item).Nodup)
    (hsource : ∀ source ∈ source?, source.text ≠ [])
    (hmem : g ∈ given) (hread : g.read = .ok s)
    (honly : ∀ item ∈ given.map Given.item, item.IsOfTail → item = g.item)
    (hsets : ∀ start, (Setting.apply start s).tailAnchor = anchor) :
    ∃ job,
      parse (given.map Given.argument ++ sourceArguments source?) = .ok job
        ∧ job.tailAnchor = anchor := by
  obtain ⟨made, hitems, hmade, hparse⟩ := parse_given hvalid hnodup hsource
  rw [← hitems] at hnodup honly
  refine ⟨_, hparse.trans (verdict_of_free ?_), ?_⟩
  · rw [conflict?_with_source, conflict?_of_lone honly]
  · rw [tailAnchor_with_source]
    refine Setting.tailAnchor_job (hmade g hmem s hread) hnodup
      (fun x hx htail => ?_) hsets
    rw [(Given.spells_of_read hread).2]
    exact honly x.item (List.mem_map_of_mem hx) htail

/-- Once an option is taken away, nothing sets its item. -/
theorem Given.item_notMem_erase {g : Given} (hmem : g ∈ given)
    (hnodup : (given.map Given.item).Nodup) :
    g.item ∉ (given.erase g).map Given.item := by
  rw [List.mem_map]
  rintro ⟨other, hother, hitem⟩
  rw [hnodup.of_map.mem_erase_iff] at hother
  exact hother.1 (List.inj_on_of_nodup_map hnodup hother.2 hmem hitem)

-- ========================================================= both, and either

/-- Take options of different items with valid values in any order, among
them an anchor for the tail, be it the standard one or empty, and the flag
that leaves the tail out, with or without a source behind them. They are
refused, because these two exclude each other, and the refusal names them
in their order. Without the flag the rest is accepted and the job has the
anchor; without the anchor it is accepted and the job has no tail. -/
theorem parse_anchor_with_noTail (anchor : Text)
    (hvalid : ∀ g ∈ given, g.IsValid)
    (hnodup : (given.map Given.item).Nodup)
    (hanchor : .valued .tailAnchor anchor ∈ given)
    (hflag : .flag .noTail ∈ given)
    (hsource : ∀ source ∈ source?, source.text ≠ []) :
    (∃ first second,
      parse (given.map Given.argument ++ sourceArguments source?)
          = .error (.exclusive first second)
        ∧ [first, second].Sublist (given.map Given.item)
        ∧ (first = .flag .noTail ∧ second = .valued .tailAnchor
          ∨ first = .valued .tailAnchor ∧ second = .flag .noTail))
      ∧ (∃ job,
        parse ((given.erase (.flag .noTail)).map Given.argument
            ++ sourceArguments source?) = .ok job
          ∧ job.tailAnchor = some anchor)
      ∧ ∃ job,
        parse ((given.erase (.valued .tailAnchor anchor)).map Given.argument
            ++ sourceArguments source?) = .ok job
          ∧ job.tailAnchor = none := by
  have hrest : ∀ g, (∀ x ∈ given.erase g, x.IsValid)
      ∧ ((given.erase g).map Given.item).Nodup := fun g =>
    ⟨fun x hx => hvalid x (List.mem_of_mem_erase hx),
      hnodup.sublist (List.erase_sublist.map _)⟩
  refine ⟨?_, ?_, ?_⟩
  · obtain ⟨first, second, hparse, hexcludes, hsub⟩ :=
      parse_given_both hvalid hnodup hsource (List.mem_map_of_mem hflag)
        (List.mem_map_of_mem hanchor)
    refine ⟨first, second, hparse, hsub, ?_⟩
    obtain ⟨hfirst, hsecond, hne⟩ := (excludes_iff _ _).1 hexcludes
    rcases hfirst with rfl | rfl <;> rcases hsecond with rfl | rfl
    · exact absurd rfl hne
    · exact .inl ⟨rfl, rfl⟩
    · exact .inr ⟨rfl, rfl⟩
    · exact absurd rfl hne
  · obtain ⟨hvalid', hnodup'⟩ := hrest (.flag .noTail)
    have hmem : .valued .tailAnchor anchor ∈ given.erase (.flag .noTail) :=
      (List.mem_erase_of_ne Given.noConfusion).2 hanchor
    have hgone := Given.item_notMem_erase hflag hnodup
    refine parse_given_one hvalid' hnodup' hsource hmem rfl ?_ fun _ => rfl
    rintro item hitem (rfl | rfl)
    · exact absurd hitem hgone
    · rfl
  · obtain ⟨hvalid', hnodup'⟩ := hrest (.valued .tailAnchor anchor)
    have hmem : .flag .noTail ∈ given.erase (.valued .tailAnchor anchor) :=
      (List.mem_erase_of_ne Given.noConfusion).2 hflag
    have hgone := Given.item_notMem_erase hanchor hnodup
    refine parse_given_one hvalid' hnodup' hsource hmem rfl ?_ fun _ => rfl
    rintro item hitem (rfl | rfl)
    · rfl
    · exact absurd hitem hgone

/-- Options among which the anchor of the standard job is given and taken
back. -/
def crowded : List Given :=
  [.valued .dedentWidth "+007".toList,
    .valued .tailAnchor "fn build_sequence".toList, .flag .verbose,
    .flag .noTail]

/-- The refusal names the anchor first, although it is the standard one,
and the source only looks like an option. -/
theorem parse_crowded :
    (∀ g ∈ crowded, g.IsValid) ∧ (crowded.map Given.item).Nodup
      ∧ .valued .tailAnchor "fn build_sequence".toList ∈ crowded
      ∧ .flag .noTail ∈ crowded
      ∧ (∀ source ∈ some (Path.ofString "-v"), source.text ≠ [])
      ∧ parse (["--dedent-width=+007", "--trailing-from=fn build_sequence",
          "--verbose", "--no-trailing", "--", "-v"].map String.toList)
        = .error (.exclusive (.valued .tailAnchor) (.flag .noTail))
      ∧ (∃ job, parse (["--dedent-width=+007",
          "--trailing-from=fn build_sequence", "--verbose", "--",
          "-v"].map String.toList) = .ok job
        ∧ job.tailAnchor = some "fn build_sequence".toList)
      ∧ ∃ job, parse (["--dedent-width=+007", "--verbose", "--no-trailing",
          "--", "-v"].map String.toList) = .ok job
        ∧ job.tailAnchor = none := by
  have hvalid : ∀ g ∈ crowded, g.IsValid := by
    simp only [crowded, List.forall_mem_cons]
    exact ⟨⟨.dedentWidth 7, by decide⟩, ⟨_, rfl⟩, ⟨_, rfl⟩, ⟨_, rfl⟩,
      List.forall_mem_nil _⟩
  have hnodup : (crowded.map Given.item).Nodup := by decide
  have hanchor :
      .valued .tailAnchor "fn build_sequence".toList ∈ crowded := by decide
  have hflag : .flag .noTail ∈ crowded := by decide
  have hsource : ∀ source ∈ some (Path.ofString "-v"), source.text ≠ [] := by
    decide
  obtain ⟨⟨first, second, hboth, hsub, horder⟩, halone⟩ :=
    parse_anchor_with_noTail _ hvalid hnodup hanchor hflag hsource
  refine ⟨hvalid, hnodup, hanchor, hflag, hsource, ?_, halone⟩
  obtain ⟨rfl, rfl⟩ | ⟨rfl, rfl⟩ := horder
  · exact absurd hsub (by decide)
  · exact hboth

end BraceLift.CommandLine
