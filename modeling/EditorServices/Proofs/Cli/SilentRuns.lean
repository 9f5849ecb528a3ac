import EditorServices.Cli.Ask

/-!
# `Proofs.Cli.SilentRuns` — runs that log without a trace

Before the first configuration no line is shown or kept, and while the clock stands still the time of the last
line stays what it was. So a log call changes nothing then, unless it fails because of an integer with too many
digits. What is reported of a configuration has none: it is paths and messages.

## Contents
- **Clocks.** `HasDate`; no time passes from a point with a date to itself.
- **Silence.** `State.Silent`, kept by every log call of an entry that is `Writable`.
- **Configurations.** What their loads report is writable.
- **Runs.** `Run.reporting_of_silent`.
-/

namespace EditorServices

namespace Log

/-! ## Clocks -/

/-- A point in time has a date. -/
def HasDate (t : Reading) : Prop := ∃ seconds, datedSeconds t = .ok seconds

variable {t : Reading}

theorem HasDate.exists_timeText (h : HasDate t) : ∃ text, timeText t = .ok text := by
  obtain ⟨seconds, hseconds⟩ := h
  exact ⟨_, by rw [timeText, hseconds]; rfl⟩

theorem HasDate.exists_stampText (h : HasDate t) : ∃ text, stampText t = .ok text := by
  obtain ⟨seconds, hseconds⟩ := h
  exact ⟨_, by rw [stampText, hseconds]; rfl⟩

/-- From a point with a date to itself no time passes. -/
theorem HasDate.milliseconds (h : HasDate t) : milliseconds t t = .ok 0 := by
  obtain ⟨seconds, hseconds⟩ := h
  cases t with
  | none => cases hseconds
  | some numeral =>
    cases numeral with
    | whole n =>
      show Except.ok ((n - n) * 1000) = .ok 0
      rw [Int.sub_self, Int.zero_mul]
    | binary x =>
      cases hscaled : x.scaled? with
      | none => simp [datedSeconds, secondsOf, hscaled] at hseconds
      | some n =>
        -- a number with a date is finite, so that the difference is zero and not undefined
        show thousandfold (.binary (x.sub x)) = .ok 0
        rw [Binary64.sub_self hscaled]
        decide +kernel

/-! ## Silence -/

/-- No integer of an entry has too many digits. -/
def Entry.Writable (e : Entry) : Prop := ∀ m ∈ e.extra, m.2.hasFewDigits = true

/-- Nor has any of its payload, since all else in that is text. -/
theorem Entry.Writable.payload {e : Entry} (h : e.Writable) (time : String) {m : String × Json}
    (hm : m ∈ payload time 0 e.level (.json (.str e.message))
      (Named.overlay [("service", .json (.str e.service))] (e.extra.map fun (k, v) => (k, Value.json v)))) :
    m.2.hasFewDigits = true := by
  rcases mem_payload hm with hleading | ⟨t, ht, rfl⟩
  · simp only [List.mem_cons, List.not_mem_nil, or_false] at hleading
    rcases hleading with rfl | rfl | rfl | rfl <;> rfl
  · rcases List.mem_append.mp (Named.mem_overlay ht) with hservice | hextra
    · rw [List.mem_singleton.mp hservice]
      rfl
    · obtain ⟨tag, htag, rfl⟩ := List.mem_map.mp hextra
      exact h tag htag

namespace State

variable {s : State}

/-- Nothing is shown or kept of what is logged, and the last line was written now. -/
structure Silent (s : State) : Prop where
  console : s.settings.console = false
  current : s.current = none
  still : s.lastLine = s.now
  hasDate : HasDate s.now

theorem silent_initial {start : Reading} (h : HasDate start) (present : Binary64)
    (existing : List (String × Binary64)) : (initial start present existing).Silent := ⟨rfl, rfl, rfl, h⟩

/-- **In silence an entry is logged without a trace.** -/
theorem Silent.logEntry (h : s.Silent) {e : Entry} (he : e.Writable) : s.logEntry e = (s, .ok ()) := by
  obtain ⟨time, htime⟩ := h.hasDate.exists_timeText
  have hspan : milliseconds s.lastLine s.now = .ok 0 := by
    rw [h.still]
    exact h.hasDate.milliseconds
  have hsame : ∀ now, now = s.lastLine → { s with lastLine := now } = s := by
    rintro _ rfl
    rfl
  unfold State.logEntry logTags
  split
  · rfl
  · rw [hspan]
    dsimp only
    rw [hsame s.now h.still.symm, htime]
    dsimp only
    rw [line_of_few fun m hm => he.payload time (mem_of_mem_written hm)]
    -- the line is there, but neither the console nor a file takes it
    show s.write _ = _
    unfold write
    rw [if_neg (by simp [h.console])]
    dsimp only
    rw [h.current]

end State

end Log

/-! ## Configurations -/

namespace Config

variable {w : World}

theorem writable_of_pair {level : Log.Level} {service message path : String} :
    (Log.Entry.mk level service message [("path", .str path)]).Writable := by
  intro m hm
  cases List.mem_singleton.mp hm
  rfl

theorem writable_loadFile (env : Environment) (path : String) (found : FileTree.Found) :
    ∀ e ∈ (loadFile env path found).entries, e.Writable := by
  have hunreadable (why : Unreadable) : ∀ e ∈ (loadFile.unreadable path why).entries, e.Writable := by
    intro e he
    cases List.mem_singleton.mp he
    intro m hm
    simp only [List.mem_cons, List.not_mem_nil, or_false] at hm
    rcases hm with rfl | rfl <;> rfl
  unfold loadFile
  split
  · exact fun e he => by cases he
  · exact fun e he => by cases he
  · exact hunreadable _
  · exact hunreadable _
  · exact hunreadable _
  · split
    · exact fun e he => by cases he
    · intro e he
      cases List.mem_singleton.mp he
      exact writable_of_pair
    · exact hunreadable _
    · exact fun e he => by cases he
    · exact fun e he => by cases he

theorem writable_gatherFiles (message : String) (paths : List String) :
    ∀ e ∈ (gatherFiles w message paths).entries, e.Writable := by
  induction paths with
  | nil => exact fun e he => by cases he
  | cons path paths ih =>
    unfold gatherFiles
    refine forall_entries_bind (writable_loadFile _ _ _) fun data => ?_
    split
    · exact ih
    · refine forall_entries_bind ?_ fun _ => forall_entries_bind ih fun more => ?_
      · intro e he
        cases List.mem_singleton.mp he
        exact writable_of_pair
      · exact fun e he => by cases he

theorem writable_gatherVariable (env : Environment) : ∀ e ∈ (gatherVariable env).entries, e.Writable := by
  unfold gatherVariable
  split
  · exact fun e he => by cases he
  · split
    · exact fun e he => by cases he
    · intro e he
      cases List.mem_singleton.mp he
      exact fun m hm => by cases hm
    · exact fun e he => by cases he

/-- **What the load of a configuration reports is writable.** -/
theorem writable_load (w : World) (directory : String) : ∀ e ∈ (load w directory).entries, e.Writable := by
  have hproject : ∀ e ∈ (gatherProject w directory).entries, e.Writable := by
    unfold gatherProject
    split
    · exact fun e he => by cases he
    · exact writable_gatherFiles _ _
  have hgather : ∀ e ∈ (gather w directory).entries, e.Writable := by
    unfold gather
    refine forall_entries_bind (writable_gatherFiles _ _) fun _ => ?_
    refine forall_entries_bind hproject fun _ => ?_
    refine forall_entries_bind (writable_gatherVariable _) fun _ => ?_
    exact fun e he => by cases he
  unfold load
  refine forall_entries_bind hgather fun sources => forall_entries_bind ?_ fun _ => ?_
  · exact fun e he => by cases he
  · exact fun e he => by cases he

end Config

namespace Cli

theorem writable_serverConfig (w : Config.World) (o : QueryOptions) :
    ∀ e ∈ (serverConfig w o).entries, e.Writable := by
  unfold serverConfig
  refine forall_entries_bind (fun e he => by cases he) fun words => ?_
  exact forall_entries_bind (Config.writable_load _ _) fun settings => fun e he => by cases he

/-! ## Runs -/

variable {r : Record} {α : Type}

namespace Run

theorem logging_of_ok {operation : Log.State → Log.State.After α} {log : Log.State} {a : α}
    (h : operation r.log = (log, .ok a)) : logging operation r = ({ r with log := log }, .ok a) := by
  unfold logging
  dsimp only
  rw [h]
  rfl

/-- In silence entries are logged without a trace. -/
theorem logAll_of_silent (h : r.log.Silent) {entries : List Log.Entry} (hentries : ∀ e ∈ entries, e.Writable) :
    logAll entries r = (r, .ok ()) := by
  induction entries with
  | nil => rfl
  | cons e entries ih =>
    have he := hentries e List.mem_cons_self
    have hrest := ih fun e he => hentries e (List.mem_cons_of_mem _ he)
    exact (bind_of_ok (logging_of_ok (h.logEntry he)) _).trans hrest

/-- **In silence a computation leaves its result and nothing else.** -/
theorem reporting_of_silent (h : r.log.Silent) {x : Reporting α} (hx : ∀ e ∈ x.entries, e.Writable) :
    reporting x r = (r, .ok x.result) :=
  bind_of_ok (logAll_of_silent h hx) _

end Run

end Cli

end EditorServices
