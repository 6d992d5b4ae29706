import ThresholdAlerts.Monitor
import ThresholdAlerts.Proofs.Dispatching
import ThresholdAlerts.Proofs.Readings
import ThresholdAlerts.Proofs.Tallies
/-! Sessions: a monitor on its way through its input. Lines are read one by one, the workers of the dispatcher make
calls, and refreshes of the rules and passes over the backlogs go on beside them. Once all is read the dispatcher is
shut down, one more pass is made, and the report is drawn up and printed. Main statement: in a calm world each rule has
the tally of its metric all the time, whatever the order in which this goes on, and no session fails. -/
namespace ThresholdAlerts

open Prog Function Relation

/-! ### The course of a session -/

/-- Time passes, some waits come to an end, and the rules may be written again as they are. -/
def World.Passes (w w' : World) : Prop :=
  ∃ source clock calendar lulls woken, source.fetch = w.source.fetch ∧ w.clock ≤ clock ∧
    w' = { w with source, clock, calendar, lulls, woken }

/-- Whoever waits with one of some tickets, or holds a slot with it, is gone. -/
def Tracker.withdraw (t : Tracker) (tickets : List Ticket) : Tracker :=
  { t with slots := (t.slots.map fun _ s => { s with queue := s.queue.filter (· ∉ tickets) }).filter fun _ s =>
      !s.detached || !s.queue.isEmpty }

def World.withdraw (w : World) (tickets : List Ticket) : World :=
  (w.onTracker (·.withdraw tickets)).onRules fun s => { s with turns := s.turns.filter (· ∉ tickets) }

/-- How far a monitor has come. -/
inductive Session.Phase where
  | reading
  /-- Nothing more is read, and the dispatcher is shut down. -/
  | ending
  /-- The workers are done, and what is undelivered gets one more attempt. -/
  | closing (c : CallThread Reply)
  | reporting (c : CallThread Reply)
  /-- The report is printed. -/
  | told (lines : List String)
  | failed (cause : MonitorError)

structure Session where
  shop : Workshop
  reader : SampleReader
  phase : Session.Phase := .reading
  /-- What was begun in the background. -/
  chores : List (CallThread Reply) := []

/-- What is done in the background while samples are taken. -/
inductive Call.Chore : Call → Prop
  | refresh : Chore .refresh
  | retry : Chore .retry

namespace Session

/-- A monitor has started. -/
def of (m : Monitor) (input : List UInt8) : Session :=
  { shop := { world := m.world, dispatcher := m.dispatcher, producer := .handing [] false }
    reader := .ofBytes input }

def put (s : Session) (w : World) : Session :=
  { s with shop := { s.shop with world := w } }

def stop (s : Session) : Session :=
  { s with shop := { s.shop with producer := .handing [] true }, phase := .ending }

def takeItem (s : Session) : Option (Except IngestError Sample) → Session
  | some (.ok x) => { s with shop := { s.shop with producer := .handing [x] false } }
  | some (.error e) => if e.isFatal then s.stop else s
  | none => s.stop

def readNext (s : Session) : Session :=
  let (w, now) := s.shop.world.readCalendar
  let (reader, item) := s.reader.next now
  { s.put w with reader }.takeItem item

/-- What happens in a session. The next line is read once the last sample was handed over. A chore may begin at any
time, and be given up at any time; which tickets are then withdrawn is left open. -/
inductive Step (s : Session) : Session → Prop
  | read (reading : s.phase = .reading) (handed : s.shop.producer = .handing [] false) : Step s s.readNext
  | fail {cause} (reading : s.phase = .reading) (refused : s.shop.producer = .refused cause) :
      Step s { s with phase := .failed (.ingest cause) }
  | work {shop} (step : Workshop.Step World.Passes s.shop shop) : Step s { s with shop }
  | begin {call : Call} (chore : call.Chore) : Step s { s with chores := s.chores ++ [.ready call.program] }
  | chore {i c w' c'} (member : s.chores[i]? = some c) (move : CallThread.Move s.shop.world c w' c') :
      Step s { s.put w' with chores := s.chores.set i c' }
  | abandon (i : Nat) (tickets : List Ticket) :
      Step s { s.put (s.shop.world.withdraw tickets) with chores := s.chores.eraseIdx i }
  | close {total} (ended : s.phase = .ending) (joined : s.shop.Joined total) :
      Step s { s with phase := .closing (.ready Call.retry.program) }
  | deliver {c w' c'} (closing : s.phase = .closing c) (move : CallThread.Move s.shop.world c w' c') :
      Step s { s.put w' with phase := .closing c' }
  | report {reply} (closed : s.phase = .closing (.finished reply)) :
      Step s { s with phase := .reporting (.ready Call.health.program) }
  | tell {c w' c'} (reporting : s.phase = .reporting c) (move : CallThread.Move s.shop.world c w' c') :
      Step s { s.put w' with phase := .reporting c' }
  | print {health} (told : s.phase = .reporting (.finished (.health health))) :
      Step s { s with
        phase := .told (health.toJson.pretty 0 :: s.shop.world.sink.store.openAlerts.map Monitor.openLine) }

def Run : Session → Session → Prop :=
  ReflTransGen Step

end Session

/-! ### What is known in between -/

/-- How far a metric has come: `finished` are the samples whose calls are over, and `begun` those whose calls have
begun. -/
inductive World.Stage (rules : List Rule) (metric : String) (finished : List Sample) (w : World) :
    Option (Sample × CallThread Reply) → List Sample → Prop
  | idle (tallied : w.TalliedFor rules metric (finished.map Sample.value)) :
      Stage rules metric finished w none finished
  | taken {x : Sample} (tallied : w.TalliedFor rules metric (finished.map Sample.value)) :
      Stage rules metric finished w (some (x, .ready x.call.program)) finished
  | begun {x c} (keeps : CallThread.Keeps (Pact.calm rules (Rule.Watched rules metric) False)
      (fun _ w' => w'.TalliedFor rules metric ((finished ++ [x]).map Sample.value)) w c) :
      Stage rules metric finished w (some (x, c)) (finished ++ [x])

/-- Of the samples that were read some are finished, more have begun, and the rules of each metric have their
tallies. -/
structure Workshop.Tallying (rules : List Rule) (read finished begun : List Sample) (s : Workshop) : Prop where
  calm : s.world.AtPeace rules
  orderly : s.Orderly read finished
  counted : s.world.engine.stats.samples = begun.length
  stage : ∀ metric, s.world.Stage rules metric (Sample.of metric finished) (s.current metric) (Sample.of metric begun)

abbrev CallThread.Minds (rules : List Rule) (steady : Prop) (post : Reply → Prop) (w : World)
    (c : CallThread Reply) : Prop :=
  CallThread.Keeps (Pact.calm rules (fun _ => False) steady) (fun reply _ => post reply) w c

/-- What holds while a session is at some phase: `read` is read of all there is to read. Nothing holds of a session
that failed. -/
inductive Session.Stands (rules : List Rule) (all : List (String × Float)) (read : List Sample) (shop : Workshop)
    (reader : SampleReader) : Session.Phase → Prop
  | reading (rest : all = read.map Sample.reading ++ SampleReader.readings reader.lines) :
      Stands rules all read shop reader .reading
  | ending (whole : all = read.map Sample.reading) : Stands rules all read shop reader .ending
  | closing {c total} (whole : all = read.map Sample.reading) (joined : shop.Joined total)
      (minds : CallThread.Minds rules False (fun _ => True) shop.world c) :
      Stands rules all read shop reader (.closing c)
  | reporting {c total} (whole : all = read.map Sample.reading) (joined : shop.Joined total)
      (minds : CallThread.Minds rules True (fun reply => ∀ h, reply = .health h → h.Clean all.length) shop.world c) :
      Stands rules all read shop reader (.reporting c)
  | told {w : World} {health : EngineHealth} (whole : all = read.map Sample.reading) (calm : w.AtPeace rules)
      (tallied : ∀ metric, w.TalliedFor rules metric ((Sample.of metric read).map Sample.value))
      (clean : health.Clean all.length) : Stands rules all read shop reader
        (.told (health.toJson.pretty 0 :: w.sink.store.openAlerts.map Monitor.openLine))

structure Session.Sound (rules : List Rule) (all : List (String × Float)) (s : Session) : Prop where
  staffed : s.shop.Staffed
  progress : ∃ read finished begun, s.shop.Tallying rules read finished begun ∧
    Session.Stands rules all read s.shop s.reader s.phase
  chores : ∀ c ∈ s.chores, CallThread.Minds rules False (fun _ => True) s.shop.world c

section Sessions

variable {rules : List Rule} {w w' : World} {x : Sample} {metric : String} {values : List Float}
  {tickets : List Ticket} {finished begun read : List Sample} {s s' : Workshop} {worker : Nat}

/-! ### Whoever is given up -/

namespace Tracker

variable {t : Tracker}

theorem get_withdraw (t : Tracker) (tickets : List Ticket) (id : SlotId) : (t.withdraw tickets).slots[id]? =
    (t.slots[id]?.map fun s => { s with queue := s.queue.filter (· ∉ tickets) }).filter fun s =>
      !s.detached || !s.queue.isEmpty := by
  rw [withdraw, Std.TreeMap.getElem?_filter', Std.TreeMap.getElem?_map]

theorem resembles_withdraw (t : Tracker) (tickets : List Ticket) : t.Resembles (t.withdraw tickets) := by
  refine ⟨rfl, rfl, fun {id s'} got => ?_, fun {id s} got attached => ?_⟩
  · rw [get_withdraw, Option.filter_eq_some_iff, Option.map_eq_some_iff] at got
    obtain ⟨⟨s, there, rfl⟩, -⟩ := got
    exact ⟨s, there, rfl, rfl, rfl⟩
  · refine ⟨{ s with queue := s.queue.filter (· ∉ tickets) }, ?_, rfl, attached⟩
    rw [get_withdraw, got, Option.map_some, Option.filter_some, if_pos]
    simp [attached]

theorem rests_withdraw (coherent : t.Coherent) (tickets : List Ticket) : t.Rests rules (t.withdraw tickets) := by
  have resembles := t.resembles_withdraw tickets
  refine .of_alike (resembles.coherent coherent) (slotFor_alike resembles.find? fun {rule id} found => ?_)
    (fun found => found) .inl
  have there : (t.withdraw tickets).slots[id]? =
      some { t.slot id with queue := (t.slot id).queue.filter (· ∉ tickets) } := by
    rw [get_withdraw, coherent.get found, Option.map_some, Option.filter_some, if_pos]
    simp [coherent.attached found]
  rw [slot_of_get there]
  exact ⟨rfl, rfl, rfl⟩

end Tracker

namespace World

theorem AtPeace.rests_withdraw (calm : w.AtPeace rules) (tickets : List Ticket) : w.Rests rules (w.withdraw tickets) :=
  ⟨Tracker.rests_withdraw calm.tracker.coherent tickets, .inl rfl, rfl, rfl, rfl, rfl, rfl, Nat.le_refl _, rfl⟩

theorem AtPeace.rests_passes (calm : w.AtPeace rules) (passes : w.Passes w') : w.Rests rules w' := by
  obtain ⟨source, clock, calendar, lulls, woken, same, later, rfl⟩ := passes
  exact calm.aside rfl rfl rfl same rfl rfl rfl later rfl

theorem AtPeace.rests_readCalendar (calm : w.AtPeace rules) : w.Rests rules w.readCalendar.1 :=
  calm.aside rfl rfl rfl rfl rfl rfl rfl (Nat.le_refl _) rfl

end World

/-! ### Calls -/

theorem calm_judgeSample (few : rules.length ≤ AlertStore.capacity) (calm : w.AtPeace rules)
    (tallied : w.TalliedFor rules x.metricKey values) :
    (do return Reply.events (← evaluateAll (← currentRules) x.metricKey x.value x.time) :
        Prog Visit Reply).Ensures (Pact.calm rules (Rule.Watched rules x.metricKey) False)
      (Team.dutiful (Pact.calm rules (Rule.Watched rules x.metricKey) False)) w
      fun _ w' => w'.TalliedFor rules x.metricKey (values ++ [x.value]) := by
  rw [currentRules, Prog.then_assoc]
  refine ensures_read ?_
  simp only [calm.valid, Bool.false_eq_true, if_false]
  refine ensures_read ?_
  exact (calm_evaluateAll few calm tallied calm.loaded).bind fun _ _ done => ensures_pure done.2

/-- What a call does that begins to take a sample is the business of the rules that watch its metric, and the
sample is counted. -/
theorem calm_begin (few : rules.length ≤ AlertStore.capacity) (calm : w.AtPeace rules)
    (tallied : w.TalliedFor rules x.metricKey values) :
    let begun := x.call.program.stretch Visit.tasks w
    begun.1.AtPeace rules ∧ w.Retains (fun rule => ¬ Rule.Watched rules x.metricKey rule) begun.1 ∧
      begun.1.engine.stats.samples = w.engine.stats.samples + 1 ∧
      CallThread.Keeps (Pact.calm rules (Rule.Watched rules x.metricKey) False)
        (fun _ w' => w'.TalliedFor rules x.metricKey (values ++ [x.value])) begun.1 begun.2 := by
  let counted := w.count .sample
  have calm₁ : counted.AtPeace rules :=
    ⟨calm.loaded, calm.valid, calm.source, calm.tracker, calm.plain, calm.store, calm.unburied⟩
  have retains (mine : RuleId → Prop) : w.Retains mine counted :=
    ⟨id, Nat.le_refl _, fun _ => rfl, fun _ there => ⟨_, there, rfl⟩, fun _ _ => Iff.rfl⟩
  have goes {w₂ : World} (rests : counted.Rests rules w₂) :
      let begun := Prog.stretch Visit.tasks
        (do return Reply.events (← evaluateAll (← currentRules) x.metricKey x.value x.time)) w₂
      begun.1.AtPeace rules ∧ w.Retains (fun rule => ¬ Rule.Watched rules x.metricKey rule) begun.1 ∧
        begun.1.engine.stats.samples = w.engine.stats.samples + 1 ∧
        CallThread.Keeps (Pact.calm rules (Rule.Watched rules x.metricKey) False)
          (fun _ w' => w'.TalliedFor rules x.metricKey (values ++ [x.value])) begun.1 begun.2 := by
    have calm₂ := calm₁.rests rests
    have retains₂ (mine : RuleId → Prop) := (retains mine).trans (rests.retains mine)
    have tallied₂ : w₂.TalliedFor rules x.metricKey values := tallied.others ⟨calm₂, retains₂ _, False.elim⟩
    obtain ⟨self, keeps⟩ := (calm_judgeSample few calm₂ tallied₂).stretch_call
    obtain ⟨calm₃, retains₃, same⟩ := self calm₂
    exact ⟨calm₃, (retains₂ _).trans retains₃, same.trans rests.samples, keeps⟩
  rw [Sample.call, Call.program, takeSample]
  simp only [Prog.then_assoc, Prog.stretch_modify]
  split
  · simp only [Prog.then_assoc, Prog.stretch_modify]
    exact goes (calm₁.aside rfl rfl rfl rfl rfl rfl rfl (Nat.le_refl _) rfl)
  · rw [Prog.then_assoc]
    exact goes (.refl calm₁)

/-! ### The stage of a metric -/

theorem Rule.Watched.unique {metric' : String} {rule : RuleId} (h : Rule.Watched rules metric rule)
    (h' : Rule.Watched rules metric' rule) : metric = metric' := by
  obtain ⟨r, known, rfl⟩ := h
  obtain ⟨r', known', rfl⟩ := h'
  rw [Option.some.inj (known.symm.trans known')]

namespace World.Stage

variable {current : Option (Sample × CallThread Reply)} {c c' : CallThread Reply}

theorem others (stage : w.Stage rules metric finished current begun)
    (others : (Pact.calm rules (Rule.Watched rules metric) False).others w w') :
    w'.Stage rules metric finished current begun := by
  cases stage with
  | idle tallied => exact .idle (tallied.others others)
  | taken tallied => exact .taken (tallied.others others)
  | begun keeps => exact .begun (keeps.others (fun tallied others => tallied.others others) others)

/-- The call goes on that takes a sample of the metric; it may begin now. -/
theorem move (few : rules.length ≤ AlertStore.capacity) (calm : w.AtPeace rules)
    (stage : w.Stage rules x.metricKey finished (some (x, c)) begun) (move : CallThread.Move w c w' c') :
    ∃ more, (∀ y ∈ more, y = x) ∧ w'.AtPeace rules ∧
      w.Retains (fun rule => ¬ Rule.Watched rules x.metricKey rule) w' ∧
      w'.engine.stats.samples = w.engine.stats.samples + more.length ∧
      w'.Stage rules x.metricKey finished (some (x, c')) (begun ++ more) := by
  cases stage with
  | taken tallied =>
    cases move with
    | begin =>
      obtain ⟨calm', retains, counted, keeps⟩ := calm_begin few calm tallied
      rw [← List.map_singleton, ← List.map_append] at keeps
      exact ⟨[x], by simp, calm', retains, counted, .begun keeps⟩
  | begun keeps =>
    obtain ⟨self, keeps'⟩ := keeps.move move
    obtain ⟨calm', retains, same⟩ := self calm
    refine ⟨[], by simp, calm', retains, same, ?_⟩
    rw [List.append_nil]
    exact .begun keeps'

theorem finish {reply : Reply} (stage : w.Stage rules metric finished (some (x, .finished reply)) begun) :
    w.Stage rules metric (finished ++ [x]) none begun := by
  cases stage with
  | begun keeps => exact .idle keeps

end World.Stage

/-! ### The workers -/

namespace Workshop.Tallying

theorem others (tallying : s.Tallying rules read finished begun) (calm : w'.AtPeace rules)
    (retains : ∀ mine, s.world.Retains mine w') (same : w'.engine.stats.samples = s.world.engine.stats.samples) :
    Workshop.Tallying rules read finished begun { s with world := w' } := by
  obtain ⟨queued, taken, order⟩ := tallying.orderly
  exact ⟨calm, ⟨queued, taken, order⟩, same.trans tallying.counted, fun metric =>
    (tallying.stage metric).others ⟨calm, retains _, False.elim⟩⟩

theorem rests (tallying : s.Tallying rules read finished begun) (rests : s.world.Rests rules w') :
    Workshop.Tallying rules read finished begun { s with world := w' } :=
  tallying.others (tallying.calm.rests rests) rests.retains rests.samples

theorem same {d : Dispatcher} {producer : Producer} (tallying : s.Tallying rules read finished begun)
    (size : d.size = s.dispatcher.size) (queue : ∀ worker, d.queue worker = s.dispatcher.queue worker)
    (coming : producer.coming = s.producer.coming) :
    Workshop.Tallying rules read finished begun { s with dispatcher := d, producer } := by
  obtain ⟨orderly, current⟩ := tallying.orderly.same size queue coming
  refine ⟨tallying.calm, orderly, tallying.counted, fun metric => ?_⟩
  rw [current]
  exact tallying.stage metric

theorem hand {coming : List Sample} {last : Bool} (tallying : s.Tallying rules read finished begun)
    (next : s.producer = .handing (x :: coming) last)
    (inside : s.dispatcher.workerOf x.metricKey < s.dispatcher.size) :
    let worker := s.dispatcher.workerOf x.metricKey
    Workshop.Tallying rules read finished begun { s with
      dispatcher := s.dispatcher.setQueue worker (s.dispatcher.queue worker ++ [x])
      producer := .handing coming last } := by
  obtain ⟨orderly, current⟩ := tallying.orderly.hand next inside
  refine ⟨tallying.calm, orderly, tallying.counted, fun metric => ?_⟩
  rw [current]
  exact tallying.stage metric

theorem take {rest : List Sample} (tallying : s.Tallying rules read finished begun) (free : s.busy worker = none)
    (waits : s.dispatcher.queue worker = x :: rest) :
    Workshop.Tallying rules read finished begun { s with
      dispatcher := s.dispatcher.setQueue worker rest
      busy := update s.busy worker (some (x, .ready x.call.program)) } := by
  obtain ⟨orderly, here, elsewhere⟩ := tallying.orderly.take free waits (.ready x.call.program)
  refine ⟨tallying.calm, orderly, tallying.counted, fun metric => ?_⟩
  have stage := tallying.stage metric
  by_cases other : x.metricKey = metric
  · subst other
    rw [here]
    rw [tallying.orderly.current_free free waits] at stage
    generalize Sample.of x.metricKey begun = begun at stage
    cases stage with
    | idle tallied => exact .taken tallied
  · rw [elsewhere other]
    exact stage

theorem move {c c' : CallThread Reply} (few : rules.length ≤ AlertStore.capacity)
    (tallying : s.Tallying rules read finished begun) (there : s.busy worker = some (x, c))
    (move : CallThread.Move s.world c w' c') :
    (∃ begun', Workshop.Tallying rules read finished begun'
      { s with world := w', busy := update s.busy worker (some (x, c')) }) ∧
      (Pact.calm rules (fun _ => False) False).others s.world w' := by
  obtain ⟨orderly, here, elsewhere⟩ := tallying.orderly.move w' c' there
  have stage := tallying.stage x.metricKey
  rw [tallying.orderly.current_busy there] at stage
  obtain ⟨more, own, calm', retains, counted, stage'⟩ := stage.move few tallying.calm move
  refine ⟨⟨begun ++ more, calm', orderly, ?_, fun metric => ?_⟩, calm', retains.mono False.elim, False.elim⟩
  · rw [counted, tallying.counted, List.length_append]
  · rw [Sample.of_append]
    by_cases other : x.metricKey = metric
    · subst other
      have all : Sample.of x.metricKey more = more :=
        List.filter_eq_self.mpr fun y mem => decide_eq_true (congrArg Sample.metricKey (own y mem))
      rw [here, all]
      exact stage'
    · have none : Sample.of metric more = [] :=
        List.filter_eq_nil_iff.mpr fun y mem => by simpa [own y mem] using other
      rw [elsewhere other, none, List.append_nil]
      -- The rules of other metrics are left alone.
      refine (tallying.stage metric).others ⟨calm', retains.mono fun watched mine => ?_, False.elim⟩
      exact other (mine.unique watched)

theorem finish {events : List Event} (tallying : s.Tallying rules read finished begun)
    (there : s.busy worker = some (x, .finished (.events events))) :
    Workshop.Tallying rules read (finished ++ [x]) begun
      { s with dispatcher := s.dispatcher.finish worker events, busy := update s.busy worker none } := by
  obtain ⟨orderly, free, elsewhere⟩ := tallying.orderly.finish events there
  refine ⟨tallying.calm, orderly, tallying.counted, fun metric => ?_⟩
  have stage := tallying.stage metric
  rw [Sample.of_append]
  by_cases other : x.metricKey = metric
  · subst other
    have self : Sample.of x.metricKey [x] = [x] := List.filter_cons_of_pos (by simp)
    rw [tallying.orderly.current_busy there] at stage
    rw [free, self]
    exact stage.finish
  · rw [elsewhere other, Sample.of_other other, List.append_nil]
    exact stage

/-- Whatever happens in the workshop, the tallies are kept. -/
theorem step (few : rules.length ≤ AlertStore.capacity) (tallying : s.Tallying rules read finished begun)
    (staffed : s.Staffed) (step : Workshop.Step World.Passes s s') :
    (∃ finished' begun', s'.Tallying rules read finished' begun') ∧
      (Pact.calm rules (fun _ => False) False).others s.world s'.world := by
  have still : (Pact.calm rules (fun _ => False) False).others s.world s.world :=
    tallying.calm.others (.refl tallying.calm)
  cases step with
  | hand next room put =>
    obtain ⟨busy, rfl⟩ := Dispatcher.put_ok put
    exact ⟨⟨_, _, tallying.hand next (Dispatcher.inside_of_busy busy)⟩, still⟩
  | refuse next put =>
    rw [Dispatcher.put_of_busy (staffed.accepts next)] at put
    cases put
  | close handed => exact ⟨⟨_, _, tallying.same rfl (fun _ => rfl) (by rw [handed]; rfl)⟩, still⟩
  | join waits ended => exact ⟨⟨_, _, tallying.same rfl (fun _ => rfl) (by rw [waits]; rfl)⟩, still⟩
  | take free gets =>
    obtain ⟨rest, waits, rfl⟩ := Dispatcher.receive_sample gets
    exact ⟨⟨_, _, tallying.take free waits⟩, still⟩
  | leave free gets =>
    obtain ⟨-, -, -, rfl⟩ := Dispatcher.receive_none gets
    exact ⟨⟨_, _, tallying.same (Dispatcher.size_setLane ..) (Dispatcher.queue_setLane rfl) rfl⟩, still⟩
  | move there move =>
    obtain ⟨⟨begun', tallying'⟩, others⟩ := tallying.move few there move
    exact ⟨⟨finished, begun', tallying'⟩, others⟩
  | finish there => exact ⟨⟨_, _, tallying.finish there⟩, still⟩
  | outside passes =>
    have rests := tallying.calm.rests_passes passes
    exact ⟨⟨finished, begun, tallying.rests rests⟩, tallying.calm.others rests⟩

theorem read_next (tallying : s.Tallying rules read finished begun) (handed : s.producer = .handing [] false) (x : Sample) :
    Workshop.Tallying rules (read ++ [x]) finished begun { s with producer := .handing [x] false } := by
  obtain ⟨queued, taken, order⟩ := tallying.orderly
  refine ⟨tallying.calm, ⟨queued, taken, fun metric => ?_⟩, tallying.counted, tallying.stage⟩
  have order := order metric
  rw [handed, show Sample.of metric (Producer.handing [] false).coming = [] from rfl, List.append_nil] at order
  rw [Sample.of_append, order]
  rfl

end Workshop.Tallying

theorem Workshop.Tallying.all_finished (tallying : s.Tallying rules read finished begun) (shut : s.Shut) :
    begun.length = read.length ∧
      ∀ metric, s.world.TalliedFor rules metric ((Sample.of metric read).map Sample.value) := by
  have each (metric : String) : Sample.of metric begun = Sample.of metric read ∧
      s.world.TalliedFor rules metric ((Sample.of metric read).map Sample.value) := by
    obtain ⟨idle, all⟩ := tallying.orderly.all_finished shut metric
    have stage := tallying.stage metric
    rw [idle, all] at stage
    generalize Sample.of metric begun = begun at stage
    cases stage with
    | idle tallied => exact ⟨rfl, tallied⟩
  exact ⟨length_eq_of_filter Sample.metricKey fun metric => congrArg List.length (each metric).1,
    fun metric => (each metric).2⟩

/-! ### The session -/

variable {all : List (String × Float)} {steady : Prop} {post : Reply → Prop} {c c' : CallThread Reply}

namespace CallThread.Minds

theorem others (minds : CallThread.Minds rules steady post w c)
    (others : (Pact.calm rules (fun _ => False) steady).others w w') : CallThread.Minds rules steady post w' c :=
  CallThread.Keeps.others minds (fun done _ => done) others

theorem ready {call : Call} (chore : call.Chore) (calm : w.AtPeace rules) :
    CallThread.Minds rules steady (fun _ => True) w (.ready call.program) := by
  refine ⟨fun w => w.AtPeace rules ∧ True, ⟨calm, trivial⟩, fun _ others => ⟨others.1, trivial⟩, fun here => ?_⟩
  cases chore with
  | refresh => exact (calm_refresh Pact.leaves_true here).weaken fun _ _ _ => trivial
  | retry => exact (calm_retry Pact.leaves_true here).weaken fun _ _ _ => trivial

theorem ready_health {samples : Nat} (calm : w.AtPeace rules) (counted : w.engine.stats.samples = samples) :
    CallThread.Minds rules True (fun reply => ∀ h, reply = .health h → h.Clean samples) w
      (.ready Call.health.program) :=
  ⟨fun w => w.AtPeace rules ∧ w.engine.stats.samples = samples, ⟨calm, counted⟩,
    fun here others => ⟨others.1, (others.2.2 trivial).trans here.2⟩, fun here => calm_health here.1 here.2⟩

end CallThread.Minds

namespace Session

variable {s s' : Session}

theorem Stands.others {phase : Phase} {shop : Workshop} {reader : SampleReader}
    (stands : Stands rules all read shop reader phase)
    (others : ∀ steady, (Pact.calm rules (fun _ => False) steady).others shop.world w') :
    Stands rules all read { shop with world := w' } reader phase := by
  cases stands with
  | reading rest => exact .reading rest
  | ending whole => exact .ending whole
  | closing whole joined minds => exact .closing whole joined (minds.others (others _))
  | reporting whole joined minds => exact .reporting whole joined (minds.others (others _))
  | told whole calm tallied clean => exact .told whole calm tallied clean

theorem Sound.put (sound : s.Sound rules all)
    (self : (Pact.calm rules (fun _ => False) steady).self s.shop.world w') : (s.put w').Sound rules all := by
  obtain ⟨staffed, ⟨read, finished, begun, tallying, stands⟩, chores⟩ := sound
  obtain ⟨calm', retains, same⟩ := self tallying.calm
  have seen (steady : Prop) : (Pact.calm rules (fun _ => False) steady).others s.shop.world w' :=
    ⟨calm', retains.mono fun mine => mine.elim, fun _ => same⟩
  exact ⟨staffed.at_world w',
    ⟨read, finished, begun, tallying.others calm' (fun _ => retains.mono fun _ => id) same, stands.others seen⟩,
    fun c mem => (chores c mem).others (seen _)⟩

/-- The next item comes in. -/
theorem Sound.readNext (sound : s.Sound rules all) (reading : s.phase = .reading)
    (handed : s.shop.producer = .handing [] false) : s.readNext.Sound rules all := by
  obtain ⟨staffed, ⟨read, finished, begun, tallying, stands⟩, chores⟩ := sound
  rw [reading] at stands
  cases stands with
  | reading rest =>
    have rests := tallying.calm.rests_readCalendar
    have tallying' := tallying.rests rests
    have staffed' := staffed.at_world s.shop.world.readCalendar.1
    have chores' : ∀ c ∈ s.chores, CallThread.Minds rules False (fun _ => True) s.shop.world.readCalendar.1 c :=
      fun c mem => (chores c mem).others (tallying.calm.others rests)
    have reads := s.reader.reads_next s.shop.world.readCalendar.2
    rw [Session.readNext]
    dsimp only
    generalize s.reader.next s.shop.world.readCalendar.2 = next at reads
    obtain ⟨reader, item⟩ := next
    have stopped (whole : all = read.map Sample.reading) : Session.Sound rules all
        { s.put s.shop.world.readCalendar.1 with reader }.stop :=
      ⟨staffed'.told_more handed, ⟨read, finished, begun, tallying'.same rfl (fun _ => rfl) (by rw [handed]; rfl),
        .ending whole⟩, chores'⟩
    cases reads with
    | @sample x first =>
      refine ⟨staffed'.told_more handed, ⟨read ++ [x], finished, begun, tallying'.read_next handed x, ?_⟩, chores'⟩
      change Stands rules all (read ++ [x]) _ _ s.phase
      rw [reading]
      refine .reading ?_
      rw [rest, first, List.map_append, List.append_assoc]
      rfl
    | skipped mild same =>
      rw [takeItem, mild]
      refine ⟨staffed', ⟨read, finished, begun, tallying', ?_⟩, chores'⟩
      change Stands rules all read _ _ s.phase
      rw [reading]
      exact .reading (same ▸ rest)
    | broken fatal empty =>
      rw [takeItem, fatal]
      exact stopped (by rw [rest, empty, List.append_nil])
    | ended empty => exact stopped (by rw [rest, empty, List.append_nil])

theorem Sound.work (few : rules.length ≤ AlertStore.capacity) (sound : s.Sound rules all) {shop : Workshop}
    (step : Workshop.Step World.Passes s.shop shop) : Session.Sound rules all { s with shop } := by
  obtain ⟨staffed, ⟨read, finished, begun, tallying, stands⟩, chores⟩ := sound
  obtain ⟨⟨finished', begun', tallying'⟩, others⟩ := tallying.step few staffed step
  refine ⟨staffed.step step, ⟨read, finished', begun', tallying', ?_⟩, fun c mem => (chores c mem).others others⟩
  generalize s.phase = phase at stands
  cases stands with
  | reading rest => exact .reading rest
  | ending whole => exact .ending whole
  | told whole calm tallied clean => exact .told whole calm tallied clean
  | closing whole joined minds =>
    -- Nothing but the world goes on any more.
    obtain ⟨w', passes, rfl⟩ := staffed.after_joined joined step
    exact .closing whole joined (minds.others (tallying.calm.others (tallying.calm.rests_passes passes)))
  | reporting whole joined minds =>
    obtain ⟨w', passes, rfl⟩ := staffed.after_joined joined step
    exact .reporting whole joined (minds.others (tallying.calm.others (tallying.calm.rests_passes passes)))

theorem Sound.chore {i : Nat} (sound : s.Sound rules all) (member : s.chores[i]? = some c)
    (move : CallThread.Move s.shop.world c w' c') :
    Session.Sound rules all { s.put w' with chores := s.chores.set i c' } := by
  obtain ⟨self, minds⟩ := CallThread.Keeps.move (sound.chores _ (List.mem_of_getElem? member)) move
  obtain ⟨staffed, progress, chores⟩ := sound.put self
  refine ⟨staffed, progress, fun c mem => ?_⟩
  rcases List.mem_or_eq_of_mem_set mem with old | rfl
  · exact chores c old
  · exact minds

theorem Sound.abandon (sound : s.Sound rules all) (i : Nat) (tickets : List Ticket) :
    Session.Sound rules all { s.put (s.shop.world.withdraw tickets) with chores := s.chores.eraseIdx i } := by
  have self : (Pact.calm rules (fun _ => False) False).self s.shop.world (s.shop.world.withdraw tickets) :=
    Pact.calm_self fun calm => calm.rests_withdraw tickets
  obtain ⟨staffed, progress, chores⟩ := sound.put self
  exact ⟨staffed, progress, fun c mem => chores c (List.mem_of_mem_eraseIdx mem)⟩

theorem Sound.close {total : DispatchSummary} (sound : s.Sound rules all) (ended : s.phase = .ending)
    (joined : s.shop.Joined total) :
    Session.Sound rules all { s with phase := .closing (.ready Call.retry.program) } := by
  obtain ⟨read, finished, begun, tallying, stands⟩ := sound.progress
  rw [ended] at stands
  cases stands with
  | ending whole =>
    exact ⟨sound.staffed, ⟨read, finished, begun, tallying, .closing whole joined (.ready .retry tallying.calm)⟩,
      sound.chores⟩

theorem Sound.deliver (sound : s.Sound rules all) (closing : s.phase = .closing c)
    (move : CallThread.Move s.shop.world c w' c') :
    Session.Sound rules all { s.put w' with phase := .closing c' } := by
  obtain ⟨read, finished, begun, tallying, stands⟩ := sound.progress
  rw [closing] at stands
  cases stands with
  | closing whole joined minds =>
    obtain ⟨self, minds'⟩ := CallThread.Keeps.move minds move
    obtain ⟨staffed, ⟨read', finished', begun', tallying', stands'⟩, chores⟩ := sound.put self
    change Stands rules all read' _ _ s.phase at stands'
    rw [closing] at stands'
    cases stands' with
    | closing whole' joined' =>
      exact ⟨staffed, ⟨read', finished', begun', tallying', .closing whole' joined' minds'⟩, chores⟩

/-- Once all workers are joined every sample was counted. -/
theorem Sound.report {reply : Reply} (sound : s.Sound rules all) (closed : s.phase = .closing (.finished reply)) :
    Session.Sound rules all { s with phase := .reporting (.ready Call.health.program) } := by
  obtain ⟨read, finished, begun, tallying, stands⟩ := sound.progress
  rw [closed] at stands
  cases stands with
  | closing whole joined minds =>
    have counted : s.shop.world.engine.stats.samples = all.length := by
      rw [tallying.counted, (tallying.all_finished (sound.staffed.shut joined).1).1, whole, List.length_map]
    exact ⟨sound.staffed, ⟨read, finished, begun, tallying,
      .reporting whole joined (.ready_health tallying.calm counted)⟩, sound.chores⟩

theorem Sound.tell (sound : s.Sound rules all) (reporting : s.phase = .reporting c)
    (move : CallThread.Move s.shop.world c w' c') :
    Session.Sound rules all { s.put w' with phase := .reporting c' } := by
  obtain ⟨read, finished, begun, tallying, stands⟩ := sound.progress
  rw [reporting] at stands
  cases stands with
  | reporting whole joined minds =>
    obtain ⟨self, minds'⟩ := CallThread.Keeps.move minds move
    obtain ⟨staffed, ⟨read', finished', begun', tallying', stands'⟩, chores⟩ := sound.put self
    change Stands rules all read' _ _ s.phase at stands'
    rw [reporting] at stands'
    cases stands' with
    | reporting whole' joined' =>
      exact ⟨staffed, ⟨read', finished', begun', tallying', .reporting whole' joined' minds'⟩, chores⟩

theorem Sound.print {health : EngineHealth} (sound : s.Sound rules all)
    (reported : s.phase = .reporting (.finished (.health health))) :
    Session.Sound rules all { s with
      phase := .told (health.toJson.pretty 0 :: s.shop.world.sink.store.openAlerts.map Monitor.openLine) } := by
  obtain ⟨read, finished, begun, tallying, stands⟩ := sound.progress
  rw [reported] at stands
  cases stands with
  | reporting whole joined minds =>
    have tallied := (tallying.all_finished (sound.staffed.shut joined).1).2
    exact ⟨sound.staffed, ⟨read, finished, begun, tallying, .told whole tallying.calm tallied (minds _ rfl)⟩,
      sound.chores⟩

theorem Sound.step (few : rules.length ≤ AlertStore.capacity) (sound : s.Sound rules all) (step : s.Step s') :
    s'.Sound rules all := by
  cases step with
  | read reading handed => exact sound.readNext reading handed
  | fail reading refused =>
    have fits := sound.staffed.producer
    rw [refused] at fits
    exact fits.elim
  | work step => exact sound.work few step
  | begin chore =>
    obtain ⟨read, finished, begun, tallying, stands⟩ := sound.progress
    exact ⟨sound.staffed, sound.progress, List.forall_mem_append.mpr ⟨sound.chores,
      List.forall_mem_singleton.mpr (.ready chore tallying.calm)⟩⟩
  | chore member move => exact sound.chore member move
  | abandon i tickets => exact sound.abandon i tickets
  | close ended joined => exact sound.close ended joined
  | deliver closing move => exact sound.deliver closing move
  | report closed => exact sound.report closed
  | tell reporting move => exact sound.tell reporting move
  | print reported => exact sound.print reported

theorem Run.sound (few : rules.length ≤ AlertStore.capacity) (sound : s.Sound rules all) (run : Run s s') :
    s'.Sound rules all := by
  induction run with
  | refl => exact sound
  | tail _ step ih => exact ih.step few step

end Session

end Sessions

end ThresholdAlerts
