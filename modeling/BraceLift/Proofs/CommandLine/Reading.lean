/-
What taking arguments does to a reading.

`Step` says it once, for one argument as for many: settings are only
added, behind those there are; only `--` ends the options; a query comes
from an argument that asks it; and what does not set the flag for a
verbose log goes on in the same way with the flag set beforehand
(`Reading.loud`). Steps follow one another (`Step.bind`), so each function
of the reading is a step because those it is made of are
(`step_takeAll`), and a whole command line can have the flag put in front
(`parse_verbose`).
-/
import BraceLift.CommandLine.Parse
import BraceLift.Proofs.CommandLine.Settings
import BraceLift.Proofs.Text.Pieces

namespace BraceLift.CommandLine

-- =============================================================== queries

/-- The short name of a query. -/
def Query.letter : Query → Char
  | .help => 'h'
  | .version => 'V'

/-- A letter that is found to be a query is the short name of it. -/
theorem Switch.eq_letter_of_ofLetter? {c : Char} {query : Query}
    (h : Switch.ofLetter? c = some (.query query)) : c = query.letter := by
  unfold Switch.ofLetter? at h
  split at h <;> cases h <;> rfl

/-- A name that is found is that of its option. -/
theorem Switch.name_of_ofName? {name : Text} {switch : Switch}
    (h : Switch.ofName? name = some switch) : switch.name = name :=
  have hname := List.find?_some h
  eq_of_beq hname

/-- The argument that ends the options. -/
def endOfOptions : Text := ['-', '-']

/-- Whether an argument asks a query: by its long name, or by its letter
behind letters of flags. -/
inductive Query.IsAskedBy (query : Query) : Text → Prop where
  | byName : query.IsAskedBy ('-' :: '-' :: query.name)
  | byLetter {flags rest : Text} :
      (∀ c ∈ flags, ∃ flag, Switch.ofLetter? c = some (.flag flag)) →
      query.IsAskedBy ('-' :: (flags ++ query.letter :: rest))

/-- How a query is asked by an argument of its own. -/
def Query.spellings (query : Query) : List Text :=
  ['-' :: '-' :: query.name, ['-', query.letter]]

namespace Reading

/-- The reading with the flag for a verbose log set beforehand. -/
def loud (reading : Reading) : Reading :=
  { reading with settings := .flag .verbose :: reading.settings }

end Reading

-- ================================================================= steps

/-- What holds of the `result` of taking some arguments from a reading, and
of what the same gives from the reading made loud. -/
structure Step (arguments : List Text) (reading : Reading)
    (result loudResult : Except Refusal Reading) : Prop where
  /-- Settings are only added, at the end. -/
  grows : ∀ next, result = .ok next → reading.settings <+: next.settings
  /-- Only `--` ends the options. -/
  plain : ∀ next, result = .ok next → next.plain = true →
    reading.plain = true ∨ endOfOptions ∈ arguments
  /-- A query is asked by one of the arguments. -/
  asks : ∀ query, result = .error (.asked query) →
    ∃ argument ∈ arguments, query.IsAskedBy argument
  /-- Without the flag for a verbose log, all goes on as with the flag set
  beforehand. -/
  loud : ∀ next, result = .ok next → .flag .verbose ∉ next.settings →
    loudResult = .ok next.loud

namespace Step

variable {xs ys : List Text} {reading : Reading}
  {result loudResult : Except Refusal Reading}

/-- More arguments do no harm. -/
theorem mono (h : Step xs reading result loudResult) (hsub : xs ⊆ ys) :
    Step ys reading result loudResult where
  grows := h.grows
  plain next hnext hplain := (h.plain next hnext hplain).imp_right (hsub ·)
  asks query hquery := by
    obtain ⟨argument, hmem, hasks⟩ := h.asks query hquery
    exact ⟨argument, hsub hmem, hasks⟩
  loud := h.loud

/-- What neither sets anything nor ends the options is a step. -/
theorem of_same {next loudNext : Reading}
    (hsettings : next.settings = reading.settings)
    (hplain : next.plain = reading.plain) (hloud : loudNext = next.loud) :
    Step xs reading (.ok next) (.ok loudNext) where
  grows _ h := by
    cases h
    exact hsettings ▸ List.prefix_rfl
  plain _ h hnext := by
    cases h
    exact .inl (hplain ▸ hnext)
  asks _ h := by cases h
  loud _ h _ := by
    cases h
    rw [hloud]

/-- So is a refusal; if it is a query, an argument has to ask it. -/
theorem of_refusal {refusal : Refusal}
    (h : ∀ query, refusal = .asked query →
      ∃ argument ∈ xs, query.IsAskedBy argument) :
    Step xs reading (.error refusal) loudResult where
  grows _ h := by cases h
  plain _ h := by cases h
  asks query hquery := by
    cases hquery
    exact h query rfl
  loud _ h := by cases h

/-- A step that goes on from another one makes one step with it. -/
theorem bind {f g : Reading → Except Refusal Reading}
    (h : Step xs reading result loudResult)
    (hnext : ∀ next, Step xs next (f next) (g next.loud)) :
    Step xs reading (result.bind f) (loudResult.bind g) := by
  cases result with
  | error refusal =>
      exact of_refusal fun query hquery => h.asks query (hquery ▸ rfl)
  | ok next =>
      obtain ⟨hgrows, hplain, hasks, hloud⟩ := hnext next
      refine ⟨?_, ?_, hasks, ?_⟩
      · intro last hlast
        exact (h.grows next rfl).trans (hgrows last hlast)
      · intro last hlast hends
        rcases hplain last hlast hends with hends | hmem
        · exact h.plain next rfl hends
        · exact .inr hmem
      · intro last hlast hquiet
        have hnot : .flag .verbose ∉ next.settings := fun hmem =>
          hquiet ((hgrows last hlast).subset hmem)
        rw [h.loud next rfl hnot]
        exact hloud last hlast hquiet

/-- What changes a reading only in what is pending can follow a step. -/
theorem map {f : Reading → Reading} (h : Step xs reading result loudResult)
    (hsettings : ∀ next, (f next).settings = next.settings)
    (hplain : ∀ next, (f next).plain = next.plain)
    (hloud : ∀ next, f next.loud = (f next).loud) :
    Step xs reading (result.map f) (loudResult.map f) := by
  have hbind : ∀ x : Except Refusal Reading,
      x.map f = x.bind fun next => .ok (f next) := by
    intro x
    cases x <;> rfl
  rw [hbind, hbind]
  exact h.bind fun next =>
    of_same (hsettings next) (hplain next) (hloud next)

end Step

-- ============================================================== settling

/-- Whether what is read for an item sets it or is refused for a fault. -/
def Sets (item : Item) : Except Refusal Setting → Prop
  | .ok made => made.item = item
  | .error refusal => ∀ query, refusal ≠ .asked query

theorem sets_readPath (item : Item) (value : Text) {make : Path → Setting}
    (hmake : ∀ path, (make path).item = item) :
    Sets item ((Setting.readPath item value).map make) := by
  unfold Setting.readPath
  by_cases hempty : value = []
  · rw [if_pos hempty]
    exact nofun
  · rw [if_neg hempty]
    exact hmake _

theorem sets_ofSource (value : Text) :
    Sets .source (Setting.ofSource value) :=
  sets_readPath _ _ fun _ => rfl

theorem sets_ofValue (option : Valued) (value : Text) :
    Sets (.valued option) (Setting.ofValue option value) := by
  cases option with
  | output => exact sets_readPath _ _ fun _ => rfl
  | dedentWidth =>
      unfold Setting.ofValue
      cases Text.readNat numberBound value with
      | ok width => rfl
      | error fault => exact nofun
  | functionAnchor | tailAnchor | publicMarker => rfl

/-- What is pending does not matter to a step. -/
theorem Step.of_settled {xs : List Text} {reading : Reading}
    {result loudResult : Except Refusal Reading}
    (h : Step xs { reading with pending := .nothing } result loudResult) :
    Step xs reading result loudResult :=
  ⟨h.grows, h.plain, h.asks, h.loud⟩

namespace Reading

variable {xs : List Text} (reading : Reading)

/-- A setting made is put behind the others. -/
theorem step_accept {item : Item} {setting : Except Refusal Setting}
    (hsets : Sets item setting) :
    Step xs reading (reading.accept item setting)
      (reading.loud.accept item setting) := by
  unfold accept
  by_cases hold : reading.settings.any (·.item == item)
  · rw [if_pos hold]
    exact .of_refusal nofun
  · rw [if_neg hold]
    cases setting with
    | error refusal =>
        exact .of_refusal fun query hquery => absurd hquery (hsets query)
    | ok made =>
        refine ⟨?_, ?_, nofun, ?_⟩
        · intro next hnext
          cases hnext
          exact List.prefix_append _ _
        · intro next hnext hplain
          cases hnext
          exact .inl hplain
        · intro next hnext hquiet
          cases hnext
          -- the item is not the flag, since the setting is not
          have hnew : ¬ reading.loud.settings.any (·.item == item) := by
            rw [loud, List.any_cons, Bool.or_eq_true, not_or]
            refine ⟨fun hflag => hquiet ?_, hold⟩
            have hmade : made.item = item := hsets
            rw [← eq_of_beq hflag] at hmade
            cases made <;> cases hmade
            exact List.mem_append_right _ (List.mem_singleton.2 rfl)
          rw [if_neg hnew]
          rfl

theorem step_settle : Step xs reading reading.settle reading.loud.settle := by
  obtain ⟨settings, pending, sourceMet, plain⟩ := reading
  cases pending with
  | nothing => exact .of_same rfl rfl rfl
  | awaiting option => exact .of_refusal nofun
  | valued option value =>
      exact .of_settled (step_accept _ (sets_ofValue option value))
  | source value => exact .of_settled (step_accept _ (sets_ofSource value))

-- ============================================================== meetings

theorem step_await (option : Valued) :
    Step xs reading (reading.await option) (reading.loud.await option) :=
  reading.step_settle.map (fun _ => rfl) (fun _ => rfl) fun _ => rfl

theorem step_attach (option : Valued) (value : Text) :
    Step xs reading (reading.attach option value)
      (reading.loud.attach option value) :=
  reading.step_settle.bind fun next =>
    next.step_accept (sets_ofValue option value)

theorem step_raise (flag : Flag) :
    Step xs reading (reading.raise flag) (reading.loud.raise flag) :=
  reading.step_settle.bind fun next =>
    next.step_accept (show Sets (.flag flag) (.ok (.flag flag)) from rfl)

/-- A query can be met where an argument asks it. -/
theorem step_ask {query : Query} {argument : Text} (hmem : argument ∈ xs)
    (hasks : query.IsAskedBy argument) :
    Step xs reading (reading.ask query) (reading.loud.ask query) :=
  reading.step_settle.bind fun _ =>
    .of_refusal fun _ h => by
      cases h
      exact ⟨argument, hmem, hasks⟩

theorem step_place (argument : Text) :
    Step xs reading (reading.place argument)
      (reading.loud.place argument) := by
  unfold place
  show Step xs reading _ (if reading.sourceMet then _ else _)
  split
  · exact .of_refusal nofun
  · exact reading.step_settle.map (fun _ => rfl) (fun _ => rfl) fun _ => rfl

-- ============================================================= arguments

theorem step_long (body : Text) :
    Step ['-' :: '-' :: body] reading (reading.long body)
      (reading.loud.long body) := by
  unfold long
  cases hcut : body.cutAt '=' with
  | mk name value? =>
      dsimp only
      cases hname : Switch.ofName? name with
      | none => exact .of_refusal nofun
      | some switch =>
          cases switch with
          | valued option =>
              cases value? with
              | none => exact reading.step_await option
              | some value => exact reading.step_attach option value
          | flag flag =>
              cases value? with
              | none => exact reading.step_raise flag
              | some value => exact .of_refusal nofun
          | query query =>
              cases value? with
              | none =>
                  obtain rfl := Text.eq_of_cutAt hcut
                  obtain rfl := Switch.name_of_ofName? hname
                  exact reading.step_ask (List.mem_singleton.2 rfl) .byName
              | some value => exact .of_refusal nofun

/-- After the letter of a flag, the letters behind it are taken. -/
theorem letters_cons {letter : Char} {flag : Flag}
    (h : Switch.ofLetter? letter = some (.flag flag)) (rest : Text) :
    reading.letters (letter :: rest)
      = (reading.raise flag).bind (·.letters rest) := by
  rw [letters, h]
  dsimp only
  cases reading.raise flag <;> rfl

theorem takeAll_cons (argument : Text) (rest : List Text) :
    reading.takeAll (argument :: rest)
      = (reading.take argument).bind (·.takeAll rest) := by
  rw [takeAll]
  cases reading.take argument <;> rfl

/-- Letters are taken behind those of flags. -/
theorem step_letters {flags : Text}
    (hflags : ∀ c ∈ flags, ∃ flag, Switch.ofLetter? c = some (.flag flag))
    (rest : Text) :
    Step ['-' :: (flags ++ rest)] reading (reading.letters rest)
      (reading.loud.letters rest) := by
  induction rest generalizing reading flags with
  | nil => exact .of_same rfl rfl rfl
  | cons letter rest ih =>
      cases hletter : Switch.ofLetter? letter with
      | none =>
          rw [letters, hletter]
          exact .of_refusal nofun
      | some switch =>
          cases switch with
          | valued option =>
              rw [letters, letters, hletter]
              dsimp only
              split
              · exact reading.step_await option
              · exact reading.step_attach option _
          | flag flag =>
              -- the letter joins the flags that a query may stand behind
              have hmore : ∀ c ∈ flags ++ [letter],
                  ∃ flag, Switch.ofLetter? c = some (.flag flag) := by
                intro c hc
                rcases List.mem_append.1 hc with hc | hc
                · exact hflags c hc
                · exact ⟨flag, List.mem_singleton.1 hc ▸ hletter⟩
              have hall : flags ++ letter :: rest
                  = (flags ++ [letter]) ++ rest := by simp
              rw [hall, reading.letters_cons hletter,
                reading.loud.letters_cons hletter]
              exact (reading.step_raise flag).bind fun next => ih next hmore
          | query query =>
              rw [letters, letters, hletter]
              obtain rfl := Switch.eq_letter_of_ofLetter? hletter
              exact reading.step_ask (List.mem_singleton.2 rfl)
                (.byLetter hflags)

theorem step_word (argument : Text) :
    Step xs reading (reading.word argument) (reading.loud.word argument) := by
  obtain ⟨settings, pending, sourceMet, plain⟩ := reading
  cases pending with
  | awaiting option => exact .of_same rfl rfl rfl
  | nothing | valued option value | source value => exact step_place _ argument

/-- Taking an argument is a step. -/
theorem step_take (argument : Text) :
    Step [argument] reading (reading.take argument)
      (reading.loud.take argument) := by
  unfold take
  show Step _ reading _ (if reading.plain then _ else _)
  split
  · exact reading.step_place argument
  · split
    · refine ⟨?_, ?_, nofun, ?_⟩
      · intro next hnext
        cases hnext
        exact List.prefix_rfl
      · exact fun _ _ _ => .inr (List.mem_singleton.2 rfl)
      · intro next hnext _
        cases hnext
        rfl
    · exact reading.step_long _
    · exact @step_letters reading [] nofun _
    · exact reading.step_word argument

/-- So is taking some. -/
theorem step_takeAll (arguments : List Text) :
    Step arguments reading (reading.takeAll arguments)
      (reading.loud.takeAll arguments) := by
  induction arguments generalizing reading with
  | nil => exact .of_same rfl rfl rfl
  | cons argument rest ih =>
      have hfirst := (reading.step_take argument).mono
        (List.cons_subset_cons argument (List.nil_subset rest))
      rw [takeAll_cons, takeAll_cons]
      exact hfirst.bind fun next =>
        (ih next).mono (List.subset_cons_self argument rest)

theorem takeAll_append (before after : List Text) :
    reading.takeAll (before ++ after)
      = (reading.takeAll before).bind (·.takeAll after) := by
  induction before generalizing reading with
  | nil => rfl
  | cons argument rest ih =>
      rw [List.cons_append, takeAll_cons, takeAll_cons]
      cases reading.take argument with
      | error refusal => rfl
      | ok next => exact ih next

/-- A reading is finished by settling it if nothing in it conflicts. -/
theorem finish_eq_ok_iff (job : Job) :
    reading.finish = .ok job
      ↔ ∃ settled, reading.settle = .ok settled
        ∧ conflict? (settled.settings.map Setting.item) = none
        ∧ Setting.job settled.settings = job := by
  unfold finish
  cases reading.settle with
  | error refusal => simp
  | ok settled =>
      cases hconflict : conflict? (settled.settings.map Setting.item) <;>
        simp [hconflict]

/-- No query is asked where nothing more is taken. -/
theorem finish_ne_asked (query : Query) :
    reading.finish ≠ .error (.asked query) := by
  intro h
  unfold finish at h
  cases hsettle : reading.settle with
  | error refusal =>
      rw [hsettle] at h
      cases h
      obtain ⟨_, hmem, -⟩ :=
        (@step_settle [] reading).asks query hsettle
      cases hmem
  | ok settled =>
      rw [hsettle] at h
      dsimp only at h
      split at h <;> cases h

variable {reading}

/-- An argument that asks a query gives it once all before is settled. -/
theorem take_spelling {settled : Reading} (hplain : reading.plain = false)
    (hsettle : reading.settle = .ok settled) {query : Query}
    {argument : Text} (hasks : argument ∈ query.spellings) :
    reading.take argument = .error (.asked query) := by
  have hask : reading.ask query = .error (.asked query) := by
    unfold ask
    rw [hsettle]
    rfl
  rw [← hask]
  unfold take
  rw [hplain]
  rcases List.mem_pair.1 hasks with rfl | rfl <;> cases query <;> rfl

end Reading

-- ========================================================= command lines

theorem parse_eq_bind (arguments : List Text) :
    parse arguments
      = (Reading.start.takeAll arguments).bind Reading.finish := by
  unfold parse
  cases Reading.start.takeAll arguments <;> rfl

theorem parse_eq_ok_iff (arguments : List Text) (job : Job) :
    parse arguments = .ok job
      ↔ ∃ taken, Reading.start.takeAll arguments = .ok taken
        ∧ taken.finish = .ok job := by
  rw [parse_eq_bind]
  cases Reading.start.takeAll arguments <;> simp [Except.bind]

/-- A query that is answered was asked by one of the arguments. -/
theorem isAskedBy_of_parse {arguments : List Text} {query : Query}
    (h : parse arguments = .error (.asked query)) :
    ∃ argument ∈ arguments, query.IsAskedBy argument := by
  rw [parse_eq_bind] at h
  cases htake : Reading.start.takeAll arguments with
  | error refusal =>
      rw [htake] at h
      cases h
      exact (Reading.start.step_takeAll arguments).asks query htake
  | ok taken =>
      rw [htake] at h
      exact absurd h (taken.finish_ne_asked query)

/-- A query is answered where the arguments in front of it are accepted,
whatever comes behind it. -/
theorem parse_of_asked {before after : List Text} {job : Job} {query : Query}
    {argument : Text} (hbefore : parse before = .ok job)
    (hends : endOfOptions ∉ before) (hasks : argument ∈ query.spellings) :
    parse (before ++ argument :: after) = .error (.asked query) := by
  obtain ⟨taken, htake, hfinish⟩ := (parse_eq_ok_iff before job).1 hbefore
  obtain ⟨settled, hsettle, -⟩ := (taken.finish_eq_ok_iff job).1 hfinish
  have hplain : taken.plain = false := by
    rw [Bool.eq_false_iff]
    intro hplain
    rcases (Reading.start.step_takeAll before).plain taken htake hplain
      with hstart | hmem
    · cases hstart
    · exact hends hmem
  rw [parse_eq_bind, Reading.takeAll_append, htake]
  show ((taken.takeAll (argument :: after)).bind Reading.finish) = _
  rw [Reading.takeAll_cons, Reading.take_spelling hplain hsettle hasks]
  rfl

/-- With the flag for a verbose log put in front, a command line gives the
same job, but verbose. -/
theorem parse_verbose {arguments : List Text} {job : Job}
    (h : parse arguments = .ok job) (hquiet : job.verbose = false) :
    parse ("-v".toList :: arguments) = .ok { job with verbose := true } := by
  obtain ⟨taken, htake, hfinish⟩ := (parse_eq_ok_iff arguments job).1 h
  obtain ⟨settled, hsettle, hfree, rfl⟩ :=
    (taken.finish_eq_ok_iff job).1 hfinish
  have hnot : .flag .verbose ∉ settled.settings := by
    rw [← Setting.verbose_job_iff, hquiet]
    exact Bool.false_ne_true
  have hsettles := @Reading.step_settle [] taken
  have hnot' : .flag .verbose ∉ taken.settings := fun hmem =>
    hnot ((hsettles.grows settled hsettle).subset hmem)
  refine (parse_eq_ok_iff _ _).2 ⟨taken.loud, ?_, ?_⟩
  · exact (Reading.start.step_takeAll arguments).loud taken htake hnot'
  · refine (taken.loud.finish_eq_ok_iff _).2
      ⟨settled.loud, hsettles.loud settled hsettle hnot, ?_, ?_⟩
    · exact (conflict?_verbose _).trans hfree
    · exact Setting.foldl_apply_verbose settled.settings Job.standard

end BraceLift.CommandLine
