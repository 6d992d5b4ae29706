import ThresholdAlerts.Proofs.Inputs
import ThresholdAlerts.Proofs.Sessions
import ThresholdAlerts.Proofs.Shifts
/-! Monitors at work. A monitor does one thing after the other: it takes in the lines that have come, lets its workers
empty their queues, sees to what is due, and at the end of its input shuts its dispatcher down and reports. Main
statement: in whatever pieces its input comes, and whatever comes in between, this is one of the courses that a session
may take, and what the session prints are the lines of the monitor. -/
namespace ThresholdAlerts

open Prog Function Relation

theorem World.Idles.passes {w w' : World} (idles : w.Idles w') : w.Passes w' := by
  obtain ⟨clock, lulls, later, -, rfl⟩ := idles
  exact ⟨_, _, _, _, _, rfl, later, rfl⟩

theorem World.Passes.elsewhere {w w' : World} (passes : w.Passes w') : w.Elsewhere w' := by
  obtain ⟨source, clock, calendar, lulls, woken, -, later, rfl⟩ := passes
  exact ⟨_, _, _, _, _, _, _, later, rfl⟩

/-! ### Calls and the programs that they run -/

theorem World.call_refresh (w : World) : (w.call .refresh).1 = (w.run refresh).1 := by
  rw [World.call, Call.program, World.run, run_bind]
  split <;> rfl

theorem World.call_retry (w : World) : w.call .retry = ((w.run retry).1, .retried (w.run retry).2) :=
  run_bind _ _ w

theorem World.call_recover (w : World) : (w.call .recover).1 = (w.run recover).1 := by
  rw [World.call, Call.program, World.run, run_bind]
  split <;> rfl

theorem World.call_health (w : World) : w.call .health = ((w.run health).1, .health (w.run health).2) :=
  run_bind _ _ w

namespace SampleReader

theorem lines_next_single (line : List UInt8) (number : Nat) (now : Timestamp) :
    (({ lines := [line], lineNumber := number } : SampleReader).next now).1.lines = [] := by
  rw [next, nextFrom]
  split
  · rfl
  · split <;> rfl

end SampleReader

/-! ### The file of the rules -/

section Files

variable {path : String} {contents : FileContents} {rules : List Rule}

/-- Where a file is makes no difference to the rules in it. -/
theorem RuleContents.readFile_elsewhere (decodes : readFile path contents = .ok rules) (path' : String) :
    readFile path' contents = .ok rules := by
  cases contents with
  | unreadable why => cases decodes
  | bytes all =>
    rw [readFile] at decodes ⊢
    split at decodes
    · cases decodes
    · split at decodes
      · cases decodes
      · exact decodes

/-- A source goes on to serve its rules if its file comes to hold what decodes to the same. -/
theorem RuleSource.fetch_setFile {s : RuleSource} (served : s.fetch = .ok rules)
    (decodes : RuleContents.readFile path contents = .ok rules) : (s.edit (.setFile contents)).fetch = s.fetch := by
  rw [edit]
  split
  · next path' old there =>
    rw [served]
    rw [fetch] at served ⊢
    cases fails : s.failure with
    | some e =>
      rw [fails] at served
      cases served
    | none => exact RuleContents.readFile_elsewhere decodes path'
  · rfl

end Files

namespace Session

variable {s : Session} {w : World}

/-! ### Parts of a session -/

theorem run_lone {f : World → CallThread Reply → Session} {a b : World × CallThread Reply}
    (moves : ∀ {w c w' c'}, CallThread.Move w c w' c' → Step (f w c) (f w' c'))
    (idles : ∀ {w w'} c, World.Idles w w' → Step (f w c) (f w' c))
    (goes : ReflTransGen (Lone CallThread.Move) a b) : Run (f a.1 a.2) (f b.1 b.2) := by
  induction goes with
  | refl => exact .refl
  | tail _ step ih =>
    rcases step with move | ⟨change, same⟩
    · exact ih.tail (moves move)
    · exact ih.tail (same ▸ idles _ change)

theorem run_work {shop shop' : Workshop} (run : Workshop.Run World.Passes shop shop') :
    Run { s with shop } { s with shop := shop' } := by
  induction run with
  | refl => exact .refl
  | tail _ step ih => exact ih.tail (.work (s := { s with shop := _ }) step)

theorem run_passes (passes : s.shop.world.Passes w) : Run s (s.put w) :=
  .single (.work (.outside passes))

/-- A chore is begun, and goes on to its end with nothing else happening. -/
theorem run_chore {call : Call} (alone : s.shop.world.Solitary .free) (chore : call.Chore) :
    ∃ chores, Run s { s.put (s.shop.world.call call).1 with chores } := by
  obtain ⟨-, goes⟩ := World.call_lone call alone
  let f (w : World) (c : CallThread Reply) : Session := { s.put w with chores := s.chores ++ [c] }
  have moves {w c w' c'} (move : CallThread.Move w c w' c') : Step (f w c) (f w' c') := by
    have there : (s.chores ++ [c])[s.chores.length]? = some c := by simp
    have step : Step (f w c) { f w' c with chores := (s.chores ++ [c]).set s.chores.length c' } := .chore there move
    rwa [List.set_append_right _ _ (Nat.le_refl _), Nat.sub_self, List.set_cons_zero] at step
  exact ⟨_, (run_lone moves (fun c change => .work (.outside change.passes)) goes).head (.begin chore)⟩

/-- What is undelivered gets one more attempt, and the report is drawn up and printed. -/
theorem run_close {total : DispatchSummary} (alone : s.shop.world.Solitary .free) (ended : s.phase = .ending)
    (joined : s.shop.Joined total) :
    let retried := s.shop.world.run retry
    let told := retried.1.run health
    Run s { s.put told.1 with
      phase := .told (told.2.toJson.pretty 0 :: told.1.sink.store.openAlerts.map Monitor.openLine) } := by
  intro retried told
  obtain ⟨alone', delivers⟩ := World.call_lone .retry alone
  rw [World.call_retry] at alone' delivers
  obtain ⟨-, tells⟩ := World.call_lone .health alone'
  rw [World.call_health] at tells
  let closing (w : World) (c : CallThread Reply) : Session := { s.put w with phase := .closing c }
  let reporting (w : World) (c : CallThread Reply) : Session := { s.put w with phase := .reporting c }
  have closed : Step s (closing s.shop.world (.ready Call.retry.program)) := .close ended joined
  have delivered := run_lone (f := closing) (fun move => .deliver rfl move)
    (fun c change => .work (.outside change.passes)) delivers
  have begun : Step (closing retried.1 (.finished (.retried retried.2)))
      (reporting retried.1 (.ready Call.health.program)) := .report rfl
  have reported := run_lone (f := reporting) (fun move => .tell rfl move)
    (fun c change => .work (.outside change.passes)) tells
  have printed : Step (reporting told.1 (.finished (.health told.2))) _ := .print rfl
  exact (((delivered.head closed).tail begun).trans reported).tail printed

/-! ### One thing after the other -/

/-- A monitor has come as far as a session: some lines are still to come, and nothing is under way. -/
structure Mirrors (lines : List (List UInt8)) (m : Monitor) (s : Session) : Prop where
  world : s.shop.world = m.world
  dispatcher : s.shop.dispatcher = m.dispatcher
  resting : s.shop.Resting
  taken : m.refused = none
  reading : m.stopped = false → s.phase = .reading ∧ s.shop.producer = .handing [] false ∧
    ∀ now, s.reader.next now = ({ lines, lineNumber := m.lineNumber } : SampleReader).next now
  stopped : m.stopped = true → s.phase = .ending ∧ s.shop.producer = .handing [] true

namespace Mirrors

variable {line : List UInt8} {lines more : List (List UInt8)} {m : Monitor} {s : Session}

theorem put (mirrors : Mirrors lines m s) (alone : w.Solitary .free) : Mirrors lines { m with world := w } (s.put w) :=
  ⟨rfl, mirrors.dispatcher, ⟨mirrors.resting.staffed.at_world w, alone, mirrors.resting.free⟩, mirrors.taken,
    mirrors.reading, mirrors.stopped⟩

/-- An item is taken. -/
theorem take (mirrors : Mirrors lines m s) (going : m.stopped = false) (item : Except IngestError Sample) :
    ∃ s', Run (s.takeItem (some item)) s' ∧ Mirrors lines (m.take item) s' := by
  obtain ⟨world, dispatcher, ⟨staffed, alone, free⟩, taken, reading, -⟩ := mirrors
  obtain ⟨phase, handed, reads⟩ := reading going
  cases item with
  | error e =>
    rw [takeItem, Monitor.take]
    cases fatal : e.isFatal with
    | true =>
      exact ⟨_, .refl, world, dispatcher, ⟨staffed.told_more handed, alone, free⟩, taken,
        fun goes => absurd goes (by simp), fun _ => ⟨rfl, rfl⟩⟩
    | false =>
      exact ⟨_, .refl, world, dispatcher, ⟨staffed, alone, free⟩, taken, fun _ => ⟨phase, handed, reads⟩,
        fun stops => absurd stops (by simp)⟩
  | ok x =>
    have resting : Workshop.Resting { s.shop with producer := .handing [x] false } :=
      ⟨staffed.told_more handed, alone, free⟩
    obtain ⟨w, d, sent, run, rest⟩ := resting.send World.Idles.passes rfl
    have sent : m.dispatcher.send x m.world = .ok (w, d) := world ▸ dispatcher ▸ sent
    rw [Monitor.take, sent]
    exact ⟨_, run_work run, rfl, rfl, rest, taken, fun _ => ⟨phase, rfl, reads⟩,
      fun stops => absurd (going.symm.trans stops) Bool.false_ne_true⟩

/-- A line is taken in. -/
theorem takeLine (mirrors : Mirrors (line :: lines) m s) : ∃ s', Run s s' ∧ Mirrors lines (m.takeLine line) s' := by
  cases ends : m.stopped with
  | true =>
    have same : m.takeLine line = m := by rw [Monitor.takeLine, ends, if_pos rfl]
    rw [same]
    exact ⟨s, .refl, mirrors.world, mirrors.dispatcher, mirrors.resting, mirrors.taken,
      fun goes => absurd (ends.symm.trans goes) nofun, mirrors.stopped⟩
  | false =>
    obtain ⟨phase, handed, reads⟩ := mirrors.reading ends
    let asked := m.world.readCalendar
    have passes : s.shop.world.Passes asked.1 := mirrors.world ▸ ⟨_, _, _, _, _, rfl, Nat.le_refl _, rfl⟩
    have alone := mirrors.resting.alone.elsewhere passes.elsewhere
    have left := SampleReader.lines_next_single line m.lineNumber asked.2
    rw [Monitor.takeLine, if_neg (Bool.eq_false_iff.mp ends)]
    dsimp only
    cases found : ({ lines := [line], lineNumber := m.lineNumber } : SampleReader).next asked.2 with
    | mk reader item =>
      rw [found] at left
      obtain ⟨_, number⟩ := reader
      obtain rfl := left
      cases item with
      | none =>
        have skips (now : Timestamp) : s.reader.next now = ({ lines, lineNumber := number } : SampleReader).next now :=
          (reads now).trans (SampleReader.next_extend_of_none lines found now)
        exact ⟨_, run_passes passes, rfl, mirrors.dispatcher,
          ⟨mirrors.resting.staffed.at_world _, alone, mirrors.resting.free⟩, mirrors.taken,
          fun _ => ⟨phase, handed, skips⟩, fun stops => absurd (ends.symm.trans stops) nofun⟩
      | some item =>
        have here : Mirrors lines { m with world := asked.1, lineNumber := number }
            { s.put asked.1 with reader := { lines, lineNumber := number } } :=
          ⟨rfl, mirrors.dispatcher, ⟨mirrors.resting.staffed.at_world _, alone, mirrors.resting.free⟩, mirrors.taken,
            fun _ => ⟨phase, handed, fun _ => rfl⟩, fun stops => absurd (ends.symm.trans stops) nofun⟩
        have next : s.reader.next s.shop.world.readCalendar.2 = ({ lines, lineNumber := number }, some item) := by
          rw [mirrors.world]
          exact (reads asked.2).trans (SampleReader.next_extend_of_some lines found)
        have read : Step s ({ s.put asked.1 with reader := { lines, lineNumber := number } }.takeItem (some item)) := by
          have read : Step s s.readNext := .read phase handed
          rw [readNext] at read
          dsimp only at read
          rwa [next, mirrors.world] at read
        obtain ⟨s', run, mirrors'⟩ := here.take ends item
        exact ⟨s', run.head read, mirrors'⟩

theorem takeEach (mirrors : Mirrors (lines ++ more) m s) :
    ∃ s', Run s s' ∧ Mirrors more (lines.foldl Monitor.takeLine m) s' := by
  induction lines generalizing m s with
  | nil => exact ⟨s, .refl, mirrors⟩
  | cons line lines ih =>
    obtain ⟨s₁, run, mirrors₁⟩ := mirrors.takeLine
    obtain ⟨s', run', mirrors'⟩ := ih mirrors₁
    exact ⟨s', run.trans run', mirrors'⟩

theorem drain (mirrors : Mirrors lines m s) : ∃ s', Run s s' ∧
    let drained := m.dispatcher.drain m.world
    Mirrors lines { m with world := drained.1, dispatcher := drained.2 } s' := by
  obtain ⟨run, rest⟩ := mirrors.resting.drainEach World.Idles.passes (List.range m.dispatcher.size)
  rw [mirrors.world, mirrors.dispatcher] at run rest
  exact ⟨_, run_work run, rfl, rfl, rest, mirrors.taken, mirrors.reading, mirrors.stopped⟩

theorem chore {call : Call} (mirrors : Mirrors lines m s) (chore : call.Chore) :
    ∃ s', Run s s' ∧ Mirrors lines { m with world := (m.world.call call).1 } s' := by
  obtain ⟨alone, -⟩ := World.call_lone call mirrors.resting.alone
  obtain ⟨chores, run⟩ := run_chore mirrors.resting.alone chore
  rw [mirrors.world] at alone run
  obtain ⟨world, dispatcher, resting, taken, reading, stopped⟩ := mirrors.put alone
  exact ⟨_, run, world, dispatcher, resting, taken, reading, stopped⟩

theorem refreshIfDue (mirrors : Mirrors lines m s) (clock : Duration) :
    ∃ s', Run s s' ∧ Mirrors lines (m.refreshIfDue clock) s' := by
  rw [Monitor.refreshIfDue]
  split
  · obtain ⟨s', run, world, dispatcher, resting, taken, reading, stopped⟩ := mirrors.chore .refresh
    rw [World.call_refresh] at world
    exact ⟨s', run, world, dispatcher, resting, taken, reading, stopped⟩
  · exact ⟨s, .refl, mirrors⟩

theorem retryIfDue (mirrors : Mirrors lines m s) (clock : Duration) :
    ∃ s', Run s s' ∧ Mirrors lines (m.retryIfDue clock) s' := by
  rw [Monitor.retryIfDue]
  split
  · obtain ⟨s', run, world, dispatcher, resting, taken, reading, stopped⟩ := mirrors.chore .retry
    rw [World.call_retry] at world
    exact ⟨s', run, world, dispatcher, resting, taken, reading, stopped⟩
  · exact ⟨s, .refl, mirrors⟩

theorem tick (mirrors : Mirrors lines m s) (clock : Duration) (calendar : Timestamp) :
    ∃ s', Run s s' ∧ Mirrors lines (m.tick clock calendar) s' := by
  let later : World := { m.world with clock := max m.world.clock clock, calendar }
  have sooner : m.world.clock ≤ max m.world.clock clock := Request.le_max_left ..
  have passes : s.shop.world.Passes later := mirrors.world ▸ ⟨_, _, _, _, _, rfl, sooner, rfl⟩
  have timed := mirrors.put (mirrors.resting.alone.elsewhere passes.elsewhere)
  obtain ⟨s₁, refreshes, mirrors₁⟩ := timed.refreshIfDue (max m.world.clock clock)
  obtain ⟨s₂, retries, mirrors₂⟩ := mirrors₁.retryIfDue (max m.world.clock clock)
  exact ⟨s₂, (run_passes passes).trans (refreshes.trans retries), mirrors₂⟩

theorem withRules {rules : List Rule} {path : String} {contents : FileContents} (mirrors : Mirrors lines m s)
    (served : s.shop.world.source.fetch = .ok rules) (decodes : RuleContents.readFile path contents = .ok rules) :
    ∃ s', Run s s' ∧ Mirrors lines (m.withRules contents) s' := by
  have passes : s.shop.world.Passes (m.world.editSource (.setFile contents)) :=
    mirrors.world ▸ ⟨_, _, _, _, _, RuleSource.fetch_setFile (mirrors.world ▸ served) decodes, Nat.le_refl _, rfl⟩
  exact ⟨_, run_passes passes, mirrors.put (mirrors.resting.alone.elsewhere passes.elsewhere)⟩

end Mirrors

end Session

/-! ### A whole input -/

namespace Monitor

theorem line_takeLine (m : Monitor) (line : List UInt8) : (m.takeLine line).line = m.line := by
  rw [takeLine]
  split
  · rfl
  · dsimp only
    split
    · next item _ =>
      cases item with
      | error e => rfl
      | ok x =>
        rw [take]
        split <;> rfl
    · rfl

theorem line_takeLines (m : Monitor) (lines : List (List UInt8)) : (lines.foldl takeLine m).line = m.line := by
  induction lines generalizing m with
  | nil => rfl
  | cons line lines ih => exact (ih _).trans (line_takeLine m line)

theorem line_feed (m : Monitor) (bytes : List UInt8) : (m.feed bytes).line = (takeLines m.line bytes).2 :=
  line_takeLines ..

theorem line_tick (m : Monitor) (clock : Duration) (calendar : Timestamp) : (m.tick clock calendar).line = m.line := by
  rw [tick, retryIfDue, refreshIfDue]
  split <;> split <;> rfl

theorem finish_eq {m m₁ : Monitor}
    (last : (if m.line.isEmpty then m else { m with line := [] }.takeLine m.line.reverse) = m₁)
    (taken : m₁.refused = none) : m.finish = .ok { m₁ with
      world := ((m₁.dispatcher.shutdown m₁.world).1.run retry).1
      dispatcher := (m₁.dispatcher.shutdown m₁.world).2.1 } := by
  rw [finish, last]
  dsimp only
  rw [taken]

theorem lines_eq (m : Monitor) : m.lines =
    (m.world.run health).2.toJson.pretty 0 :: (m.world.run health).1.sink.store.openAlerts.map openLine := rfl

end Monitor

namespace Session.Mirrors

variable {m : Monitor} {s : Session} {rest : List UInt8} {rules : List Rule} {all : List (String × Float)} {path : String}

/-- Whatever comes to the monitor, a session gets as far. -/
theorem handle (signal : Monitor.Signal) (mirrors : Mirrors (Intake.added m.line (signal.input ++ rest)) m s)
    (served : s.shop.world.source.fetch = .ok rules)
    (same : ∀ contents, signal = .rules contents → RuleContents.readFile path contents = .ok rules) :
    ∃ s', Run s s' ∧ Mirrors (Intake.added (m.handle signal).line rest) (m.handle signal) s' := by
  cases signal with
  | time clock calendar =>
    rw [Monitor.handle, Monitor.line_tick]
    exact mirrors.tick clock calendar
  | rules contents => exact mirrors.withRules served (same contents rfl)
  | bytes bytes =>
    have split : Intake.added m.line (bytes ++ rest) =
        (takeLines m.line bytes).1 ++ Intake.added (takeLines m.line bytes).2 rest := by
      simp only [Intake.added, Intake.takeLines_append, List.append_assoc]
    rw [Monitor.Signal.input, split] at mirrors
    rw [Monitor.handle, Monitor.line_feed]
    have begun : Mirrors _ { m with line := (takeLines m.line bytes).2 } s :=
      ⟨mirrors.world, mirrors.dispatcher, mirrors.resting, mirrors.taken, mirrors.reading, mirrors.stopped⟩
    obtain ⟨s₁, reads, mirrors₁⟩ := begun.takeEach
    obtain ⟨s₂, drains, mirrors₂⟩ := mirrors₁.drain
    exact ⟨s₂, reads.trans drains, mirrors₂⟩

theorem handleAll (few : rules.length ≤ AlertStore.capacity) (signals : List Monitor.Signal) (sound : s.Sound rules all)
    (mirrors : Mirrors (Intake.added m.line (signals.flatMap Monitor.Signal.input)) m s)
    (same : ∀ contents, .rules contents ∈ signals → RuleContents.readFile path contents = .ok rules) :
    ∃ s', Run s s' ∧
      Mirrors (Intake.added (signals.foldl Monitor.handle m).line []) (signals.foldl Monitor.handle m) s' := by
  induction signals generalizing m s with
  | nil => exact ⟨s, .refl, mirrors⟩
  | cons signal signals ih =>
    rw [List.flatMap_cons] at mirrors
    obtain ⟨read, finished, begun, tallying, -⟩ := sound.progress
    obtain ⟨s₁, run, mirrors₁⟩ := mirrors.handle signal tallying.calm.source fun contents here =>
      same contents (here ▸ List.mem_cons_self)
    obtain ⟨s₂, run', mirrors₂⟩ := ih (run.sound few sound) mirrors₁ fun contents mem =>
      same contents (List.mem_cons_of_mem _ mem)
    exact ⟨s₂, run.trans run', mirrors₂⟩

/-- When no line is left the session comes to the end of its input. -/
theorem ends (mirrors : Mirrors [] m s) : ∃ s', Run s s' ∧ s'.phase = .ending ∧ s'.shop.producer = .handing [] true ∧
    s'.shop.world = m.world ∧ s'.shop.dispatcher = m.dispatcher ∧ s'.shop.Resting := by
  cases stop : m.stopped with
  | true =>
    obtain ⟨phase, handed⟩ := mirrors.stopped stop
    exact ⟨s, .refl, phase, handed, mirrors.world, mirrors.dispatcher, mirrors.resting⟩
  | false =>
    obtain ⟨phase, handed, reads⟩ := mirrors.reading stop
    have none : s.reader.next s.shop.world.readCalendar.2 = ({ lines := [], lineNumber := m.lineNumber }, none) :=
      reads s.shop.world.readCalendar.2
    let ended := { s.put s.shop.world.readCalendar.1 with
      reader := ({ lines := [], lineNumber := m.lineNumber } : SampleReader) }.stop
    have read : Step s ended := by
      have read : Step s s.readNext := .read phase handed
      rw [readNext] at read
      dsimp only at read
      rwa [none] at read
    -- The calendar was looked at for nothing.
    have passes : ended.shop.world.Passes s.shop.world := ⟨_, _, _, _, _, rfl, Nat.le_refl _, rfl⟩
    have run : Run s (ended.put s.shop.world) := (run_passes passes).head read
    exact ⟨_, run, rfl, rfl, mirrors.world, mirrors.dispatcher, mirrors.resting.staffed.told_more handed,
      mirrors.resting.alone, mirrors.resting.free⟩

/-- At the end of its input the monitor does not fail, and a session prints what it has to say. -/
theorem finish (mirrors : Mirrors (Intake.added m.line []) m s) :
    ∃ m' s', m.finish = .ok m' ∧ Run s s' ∧ s'.phase = .told m'.lines := by
  -- The last line counts though it has no line feed.
  obtain ⟨m₁, s₁, last, reads, mirrors₁⟩ : ∃ m₁ s₁,
      (if m.line.isEmpty then m else { m with line := [] }.takeLine m.line.reverse) = m₁ ∧ Run s s₁ ∧
        Mirrors [] m₁ s₁ := by
    rw [Intake.added, takeLines] at mirrors
    dsimp only at mirrors
    rw [List.nil_append] at mirrors
    split
    · next empty =>
      rw [if_pos empty] at mirrors
      exact ⟨m, s, rfl, .refl, mirrors⟩
    · next some =>
      rw [if_neg some] at mirrors
      have begun : Mirrors [m.line.reverse] { m with line := [] } s :=
        ⟨mirrors.world, mirrors.dispatcher, mirrors.resting, mirrors.taken, mirrors.reading, mirrors.stopped⟩
      obtain ⟨s₁, run, mirrors₁⟩ := begun.takeLine
      exact ⟨_, s₁, rfl, run, mirrors₁⟩
  obtain ⟨s₂, ends, phase, handed, world, dispatcher, resting⟩ := mirrors₁.ends
  obtain ⟨closes, resting'⟩ := resting.shutdown World.Idles.passes handed
  rw [world, dispatcher] at closes resting'
  have finished := Monitor.finish_eq last mirrors₁.taken
  generalize m₁.dispatcher.shutdown m₁.world = r at closes resting' finished
  let s₃ : Session :=
    { s₂ with shop := { s₂.shop with world := r.1, dispatcher := r.2.1, producer := .joining r.2.1.size r.2.2 } }
  have closed : Run s₂ s₃ := run_work closes
  have joined : s₃.shop.Joined r.2.2 := rfl
  have tells := run_close (s := s₃) resting'.alone phase joined
  refine ⟨_, _, finished, reads.trans (ends.trans (closed.trans tells)), ?_⟩
  rw [Monitor.lines_eq]

end Session.Mirrors

end ThresholdAlerts
