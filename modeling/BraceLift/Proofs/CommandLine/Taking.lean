/-
Options that are each written in one argument, and a source behind `--`.

Such an option (`Spells`) is settled when it is met, so nothing is ever
pending: if its item is new, its setting is put behind those made before
(`take_of_spells`), and a list of them without a repetition is taken as it
stands, whatever its order (`takeAll_of_spells`). Then all that is left to
go wrong is that two of the items exclude each other, which is decided on
the settings alone (`verdict`, `parse_of_taken`).
-/
import Mathlib.Data.List.Forall2
import BraceLift.Proofs.CommandLine.Reading

namespace BraceLift.CommandLine

/-- No name of an option has an equals sign in it. -/
theorem Switch.notMem_name (switch : Switch) : '=' ∉ switch.name := by
  rcases switch with v | f | q
  · cases v <;> decide
  · cases f <;> decide
  · cases q <;> decide

/-- Whether an argument of its own spells a setting: an option with its
value attached, which is read as the setting, or a flag. -/
inductive Spells : Text → Setting → Prop where
  | valued {option : Valued} {value : Text} {s : Setting} :
      Setting.ofValue option value = .ok s →
      Spells ('-' :: '-' :: (option.name ++ '=' :: value)) s
  | flag (f : Flag) : Spells ('-' :: '-' :: f.name) (.flag f)

/-- What is read for an option sets its item. -/
theorem item_of_ofValue {option : Valued} {value : Text} {s : Setting}
    (h : Setting.ofValue option value = .ok s) : s.item = .valued option := by
  have hsets := sets_ofValue option value
  rw [h] at hsets
  exact hsets

namespace Reading

-- ================================================================ taking

variable {reading : Reading} {s : Setting}

/-- A setting of a new item is made. -/
theorem accept_of_new {item : Item}
    (hnew : item ∉ reading.settings.map Setting.item) :
    reading.accept item (.ok s)
      = .ok { reading with settings := reading.settings ++ [s] } := by
  unfold accept
  rw [if_neg]
  · rfl
  · rw [List.any_eq_true]
    rintro ⟨old, hmem, heq⟩
    exact hnew (List.mem_map.2 ⟨old, hmem, eq_of_beq heq⟩)

theorem long_valued (option : Valued) (value : Text) :
    reading.long (option.name ++ '=' :: value)
      = reading.attach option value := by
  have hcut := Text.cutAt_append_sep
    (Switch.notMem_name (.valued option)) value
  have hname := Switch.ofName?_name (.valued option)
  unfold Switch.name at hcut hname
  unfold long
  rw [hcut]
  dsimp only
  rw [hname]

theorem long_flag (flag : Flag) :
    reading.long flag.name = reading.raise flag := by
  have hcut := Text.cutAt_of_notMem (Switch.notMem_name (.flag flag))
  have hname := Switch.ofName?_name (.flag flag)
  unfold Switch.name at hcut hname
  unfold long
  rw [hcut]
  dsimp only
  rw [hname]

/-- An argument of two dashes and more is an option. -/
theorem take_long (hplain : reading.plain = false) {body : Text}
    (hne : body ≠ []) :
    reading.take ('-' :: '-' :: body) = reading.long body := by
  unfold take
  rw [hplain]
  cases body with
  | nil => exact absurd rfl hne
  | cons c rest => rfl

/-- An option in one argument makes its setting if its item is new. -/
theorem take_of_spells {argument : Text} (h : Spells argument s)
    (hpending : reading.pending = .nothing) (hplain : reading.plain = false)
    (hnew : s.item ∉ reading.settings.map Setting.item) :
    reading.take argument
      = .ok { reading with settings := reading.settings ++ [s] } := by
  have hsettle : reading.settle = .ok reading := by
    unfold settle
    rw [hpending]
  cases h with
  | @valued option value _ hread =>
      rw [take_long hplain (by simp), long_valued, attach, hsettle]
      show reading.accept (.valued option) _ = _
      rw [hread]
      exact accept_of_new (item_of_ofValue hread ▸ hnew)
  | flag f =>
      have hne : f.name ≠ [] := by cases f <;> decide
      rw [take_long hplain hne, long_flag, raise, hsettle]
      exact accept_of_new hnew

/-- Options of different items are taken as they stand. -/
theorem takeAll_of_spells {arguments : List Text} {given : List Setting}
    (h : List.Forall₂ Spells arguments given)
    (hpending : reading.pending = .nothing) (hplain : reading.plain = false)
    (hnodup : ((reading.settings ++ given).map Setting.item).Nodup) :
    reading.takeAll arguments
      = .ok { reading with settings := reading.settings ++ given } := by
  induction h generalizing reading with
  | nil =>
      rw [List.append_nil]
      rfl
  | @cons argument s arguments rest hspells _ ih =>
      have hall : reading.settings ++ s :: rest
          = (reading.settings ++ [s]) ++ rest := by simp
      have hnew : s.item ∉ reading.settings.map Setting.item := by
        rw [List.map_append, List.nodup_append] at hnodup
        intro hmem
        exact hnodup.2.2 _ hmem _ (List.mem_cons_self ..) rfl
      rw [takeAll_cons, take_of_spells hspells hpending hplain hnew, hall]
      rw [hall] at hnodup
      exact ih hpending hplain hnodup

end Reading

-- ============================================================== finishing

theorem Setting.readPath_eq_ok (item : Item) {path : Path}
    (h : path.text ≠ []) : readPath item path.text = .ok path := by
  unfold readPath
  rw [if_neg h]

theorem Setting.ofSource_text {path : Path} (h : path.text ≠ []) :
    ofSource path.text = .ok (.source path) := by
  rw [ofSource, readPath_eq_ok _ h]
  rfl

/-- What settings come to once they are all made: the job, unless two of
them exclude each other. -/
def verdict (settings : List Setting) : Except Refusal Job :=
  match conflict? (settings.map Setting.item) with
  | some (first, second) => .error (.exclusive first second)
  | none => .ok (Setting.job settings)

theorem verdict_of_free {settings : List Setting}
    (h : conflict? (settings.map Setting.item) = none) :
    verdict settings = .ok (Setting.job settings) := by
  unfold verdict
  rw [h]

theorem Reading.finish_eq_verdict {reading settled : Reading}
    (h : reading.settle = .ok settled) :
    reading.finish = verdict settled.settings := by
  have hbind : reading.finish
      = reading.settle.bind (verdict ·.settings) := by
    unfold finish
    cases reading.settle <;> rfl
  exact hbind.trans (congrArg (Except.bind · _) h)

/-- The arguments that give the source, if one is given: `--`, so that it
may look like an option, and the source. -/
def sourceArguments : Option Path → List Text
  | none => []
  | some source => [endOfOptions, source.text]

/-- Once the options are taken, with or without a source behind them, the
settings decide. -/
theorem parse_of_taken {arguments : List Text} {settings : List Setting}
    {source? : Option Path}
    (htake : Reading.start.takeAll arguments
      = .ok { Reading.start with settings := settings })
    (hnew : .source ∉ settings.map Setting.item)
    (hsource : ∀ source ∈ source?, source.text ≠ []) :
    parse (arguments ++ sourceArguments source?)
      = verdict (settings ++ (source?.map Setting.source).toList) := by
  rw [parse_eq_bind, Reading.takeAll_append, htake]
  cases source? with
  | none =>
      have hsettle : Reading.settle ⟨settings, .nothing, false, false⟩
          = .ok ⟨settings, .nothing, false, false⟩ := rfl
      rw [Option.map_none, Option.toList_none, List.append_nil]
      exact Reading.finish_eq_verdict hsettle
  | some source =>
      have hsettle : Reading.settle
            ⟨settings, .source source.text, true, true⟩
          = .ok ⟨settings ++ [.source source], .nothing, true, true⟩ := by
        show Reading.accept ⟨settings, .nothing, true, true⟩ .source
          (Setting.ofSource source.text) = _
        rw [Setting.ofSource_text (hsource source rfl)]
        exact Reading.accept_of_new hnew
      exact Reading.finish_eq_verdict hsettle

end BraceLift.CommandLine
