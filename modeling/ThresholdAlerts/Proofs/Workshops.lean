import ThresholdAlerts.Proofs.Staffing
/-! What the workers of a dispatcher do for each metric. Main statement: for each metric the samples that were taken
up, that wait and that are still to be handed over make up the whole in order, and the rules of the metric have judged
those that are finished. -/
namespace ThresholdAlerts

open Function Relation

/-- What is under way for a metric. -/
def Workshop.current (s : Workshop) (metric : String) : Option (Sample × CallThread Reply) :=
  (s.busy (s.dispatcher.workerOf metric)).filter (·.1.metricKey = metric)

/-- The samples of a metric, in order. -/
def Sample.of (metric : String) (samples : List Sample) : List Sample :=
  samples.filter (·.metricKey = metric)

/-- The events of a rule, in order. -/
def Event.of (rule : RuleId) (events : List Event) : List Event :=
  events.filter (·.ruleId = rule)

/-- Each worker has to do with its own metrics, and for each metric the samples that are finished, what is under way
and what waits make up the whole in order. -/
structure Workshop.Orderly (samples finished : List Sample) (s : Workshop) : Prop where
  queued : ∀ worker, ∀ x ∈ s.dispatcher.queue worker, s.dispatcher.workerOf x.metricKey = worker
  taken : ∀ worker x c, s.busy worker = some (x, c) → s.dispatcher.workerOf x.metricKey = worker
  order : ∀ metric, Sample.of metric samples = Sample.of metric finished ++
    ((s.current metric).map (·.1)).toList ++ Sample.of metric (s.dispatcher.queue (s.dispatcher.workerOf metric)) ++
    Sample.of metric s.producer.coming

/-- The dispatcher did its work since `w₀`: `log` tells the samples that are finished and their events, in the
order in which they were finished. -/
structure Workshop.Sound (w₀ : World) (samples : List Sample) (log : List (Sample × List Event))
    (s : Workshop) : Prop where
  keeps : w₀.Keeps (fun rule => ∀ metric, rule ∉ (w₀.watchers metric).map Rule.id) s.world
  draws : w₀.Draws s.world
  summary : s.dispatcher.summary = { samples := log.length, events := (log.flatMap (·.2)).length }
  queued : ∀ worker, ∀ x ∈ s.dispatcher.queue worker, s.dispatcher.workerOf x.metricKey = worker
  taken : ∀ worker x c, s.busy worker = some (x, c) → s.dispatcher.workerOf x.metricKey = worker
  order : ∀ metric, Sample.of metric samples = Sample.of metric (log.map (·.1)) ++
    ((s.current metric).map (·.1)).toList ++ Sample.of metric (s.dispatcher.queue (s.dispatcher.workerOf metric)) ++
    Sample.of metric s.producer.coming
  stage : ∀ metric, match s.current metric with
    | none => ∀ r ∈ w₀.watchers metric,
        w₀.HasJudged r (Sample.of metric (log.map (·.1))) (Event.of r.id (log.flatMap (·.2))) s.world
    | some (x, c) =>
      x.At w₀ (Sample.of metric (log.map (·.1))) (fun rule => Event.of rule (log.flatMap (·.2))) s.world c
  own : ∀ event ∈ log.flatMap (·.2), ∃ metric, event.ruleId ∈ (w₀.watchers metric).map Rule.id

section Workshops

variable {outside : World → World → Prop} {w₀ w w' : World} {samples : List Sample}
  {log : List (Sample × List Event)} {s s' : Workshop} {x : Sample} {metric : String} {worker : Nat}

/-! ### Samples and events by whose they are -/

theorem Sample.of_append (metric : String) (samples samples' : List Sample) :
    Sample.of metric (samples ++ samples') = Sample.of metric samples ++ Sample.of metric samples' :=
  List.filter_append ..

theorem Sample.of_other (other : x.metricKey ≠ metric) : Sample.of metric [x] = [] :=
  List.filter_cons_of_neg (by simpa using other)

theorem Event.of_append (rule : RuleId) (events events' : List Event) :
    Event.of rule (events ++ events') = Event.of rule events ++ Event.of rule events' :=
  List.filter_append ..

theorem Event.of_eq_nil {rule : RuleId} {events : List Event} (other : ∀ e ∈ events, e.ruleId ≠ rule) :
    Event.of rule events = [] :=
  List.filter_eq_nil_iff.mpr fun e mem => by simpa using other e mem

theorem Event.of_eq_self {rule : RuleId} {events : List Event} (own : ∀ e ∈ events, e.ruleId = rule) :
    Event.of rule events = events :=
  List.filter_eq_self.mpr fun e mem => decide_eq_true (own e mem)

/-- The events of some rules, put together, can be told apart again. -/
theorem Event.of_flatten {rules : List Rule} {news : List (List Event)} (once : (rules.map Rule.id).Nodup)
    (own : List.Forall₂ (fun r new => ∀ e ∈ new, e.ruleId = r.id) rules news) :
    List.Forall₂ (fun r new => Event.of r.id news.flatten = new) rules news ∧
      ∀ e ∈ news.flatten, e.ruleId ∈ rules.map Rule.id := by
  induction own with
  | nil => exact ⟨.nil, by simp⟩
  | @cons r new rules news here others ih =>
    obtain ⟨fresh, once⟩ := List.nodup_cons.mp once
    obtain ⟨each, named⟩ := ih once
    refine ⟨.cons ?_ (forall₂_imp_mem each fun r' mem new' same => ?_), fun e mem => ?_⟩
    · have none : Event.of r.id news.flatten = [] := Event.of_eq_nil fun e mem same => fresh (same ▸ named e mem)
      rw [List.flatten_cons, Event.of_append, Event.of_eq_self here, none, List.append_nil]
    · rw [List.flatten_cons, Event.of_append, same, Event.of_eq_nil, List.nil_append]
      refine fun e mine same => fresh ?_
      rw [(here e mine).symm.trans same]
      exact List.mem_map_of_mem mem
    · rcases List.mem_append.mp mem with first | later
      · exact here e first ▸ List.mem_cons_self
      · exact List.mem_cons_of_mem _ (named e later)

theorem Workshop.orderly_opened (w : World) (workers capacity : Nat) (samples : List Sample) :
    (Workshop.opened w workers capacity samples).Orderly samples [] where
  queued worker x mem := absurd mem (by simp [opened, Dispatcher.queue_make])
  taken worker x c there := absurd there (by simp [opened])
  order metric := by simp [opened, current, Dispatcher.queue_make, Sample.of, Producer.coming]

theorem Workshop.sound_opened (ready : w₀.Ready) (workers capacity : Nat) (samples : List Sample) :
    (Workshop.opened w₀ workers capacity samples).Sound w₀ samples [] := by
  obtain ⟨queued, taken, order⟩ := Workshop.orderly_opened w₀ workers capacity samples
  exact ⟨.refl _ w₀, (World.Quiet.refl w₀).draws, Dispatcher.summary_make .., queued, taken, order,
    fun metric r mem => ready.hasJudged r, by simp⟩

namespace Workshop

theorem current_other {b : Option (Sample × CallThread Reply)} (size : s'.dispatcher.size = s.dispatcher.size)
    (busy : s'.busy = update s.busy worker b) (before : ∀ p ∈ s.busy worker, p.1 = x) (after : ∀ p ∈ b, p.1 = x)
    (other : x.metricKey ≠ metric) : s'.current metric = s.current metric := by
  have skipped {b : Option (Sample × CallThread Reply)} (only : ∀ p ∈ b, p.1 = x) :
      b.filter (·.1.metricKey = metric) = none :=
    Option.filter_eq_none_iff.mpr fun p mem => by simpa [only p mem] using other
  rw [current, current, Dispatcher.workerOf, size, ← Dispatcher.workerOf, busy]
  by_cases here : s.dispatcher.workerOf metric = worker
  · rw [here, update_self, skipped before, skipped after]
  · rw [update_of_ne here]

/-! ### Whose turn it is -/

namespace Orderly

variable {finished : List Sample}

theorem taken_update {b : Option (Sample × CallThread Reply)} (orderly : s.Orderly samples finished)
    (home : s.dispatcher.workerOf x.metricKey = worker) (after : ∀ p ∈ b, p.1 = x) (worker' : Nat) (x' : Sample)
    (c : CallThread Reply) (there : update s.busy worker b worker' = some (x', c)) :
    s.dispatcher.workerOf x'.metricKey = worker' := by
  by_cases same : worker' = worker
  · subst same
    rw [update_self] at there
    obtain rfl : x' = x := after _ there
    exact home
  · exact orderly.taken worker' x' c ((update_of_ne same ..).symm.trans there)

theorem current_busy {c : CallThread Reply} (orderly : s.Orderly samples finished)
    (there : s.busy worker = some (x, c)) : s.current x.metricKey = some (x, c) := by
  rw [current, orderly.taken worker x c there, there]
  simp

theorem current_free {rest : List Sample} (orderly : s.Orderly samples finished) (free : s.busy worker = none)
    (waits : s.dispatcher.queue worker = x :: rest) : s.current x.metricKey = none := by
  rw [current, orderly.queued worker x (waits ▸ List.mem_cons_self), free]
  rfl

theorem same {d : Dispatcher} {producer : Producer} (orderly : s.Orderly samples finished)
    (size : d.size = s.dispatcher.size) (queue : ∀ worker, d.queue worker = s.dispatcher.queue worker)
    (coming : producer.coming = s.producer.coming) :
    let s' : Workshop := { s with dispatcher := d, producer }
    s'.Orderly samples finished ∧ ∀ metric, s'.current metric = s.current metric := by
  intro s'
  have workerOf (metric : String) : d.workerOf metric = s.dispatcher.workerOf metric := by
    rw [Dispatcher.workerOf, size, Dispatcher.workerOf]
  have current (metric : String) : s'.current metric = s.current metric := by
    rw [Workshop.current, workerOf, Workshop.current]
  refine ⟨⟨fun worker x mem => ?_, fun worker x c there => ?_, fun metric => ?_⟩, current⟩
  · rw [workerOf]
    exact orderly.queued worker x (queue worker ▸ mem)
  · rw [workerOf]
    exact orderly.taken worker x c there
  · rw [current, workerOf, queue, orderly.order metric, coming]

/-- A sample goes to the queue of its worker. -/
theorem hand {coming : List Sample} {last : Bool} (orderly : s.Orderly samples finished)
    (next : s.producer = .handing (x :: coming) last)
    (inside : s.dispatcher.workerOf x.metricKey < s.dispatcher.size) :
    let worker := s.dispatcher.workerOf x.metricKey
    let s' : Workshop :=
      { s with
        dispatcher := s.dispatcher.setQueue worker (s.dispatcher.queue worker ++ [x])
        producer := .handing coming last }
    s'.Orderly samples finished ∧ ∀ metric, s'.current metric = s.current metric := by
  intro worker s'
  have inside : worker < s.dispatcher.size := inside
  have queue (worker' : Nat) : s'.dispatcher.queue worker' = _ := Dispatcher.queue_setQueue inside worker'
  have workerOf (metric : String) : s'.dispatcher.workerOf metric = s.dispatcher.workerOf metric :=
    Dispatcher.workerOf_setQueue ..
  have current (metric : String) : s'.current metric = s.current metric := by
    rw [Workshop.current, workerOf, Workshop.current]
  refine ⟨⟨fun worker' x' mem => ?_, fun worker' x' c there => ?_, fun metric => ?_⟩, current⟩
  · rw [workerOf]
    rw [queue] at mem
    split at mem
    · next same =>
      rcases List.mem_append.mp mem with old | new
      · exact same ▸ orderly.queued worker x' old
      · obtain rfl := List.mem_singleton.mp new
        exact same.symm
    · exact orderly.queued worker' x' mem
  · rw [workerOf]
    exact orderly.taken worker' x' c there
  · change _ = _ ++ _ ++ _ ++ Sample.of metric coming
    have split : Sample.of metric s.producer.coming = Sample.of metric [x] ++ Sample.of metric coming := by
      rw [next]
      exact Sample.of_append metric [x] coming
    rw [current, workerOf, queue, orderly.order metric, split]
    by_cases here : s.dispatcher.workerOf metric = worker
    · rw [if_pos here, here, Sample.of_append]
      simp only [List.append_assoc]
    · have other : x.metricKey ≠ metric := fun same => here (congrArg s.dispatcher.workerOf same.symm)
      rw [if_neg here, Sample.of_other other, List.nil_append]

/-- A worker that is free takes the oldest sample of its queue. -/
theorem take {rest : List Sample} (orderly : s.Orderly samples finished) (free : s.busy worker = none)
    (waits : s.dispatcher.queue worker = x :: rest) (c : CallThread Reply) :
    let s' : Workshop :=
      { s with dispatcher := s.dispatcher.setQueue worker rest, busy := update s.busy worker (some (x, c)) }
    s'.Orderly samples finished ∧ s'.current x.metricKey = some (x, c) ∧
      ∀ {metric}, x.metricKey ≠ metric → s'.current metric = s.current metric := by
  intro s'
  have inside : worker < s.dispatcher.size := Dispatcher.inside_of_waits waits
  have home : s.dispatcher.workerOf x.metricKey = worker := orderly.queued worker x (waits ▸ List.mem_cons_self)
  have queue (worker' : Nat) : s'.dispatcher.queue worker' = _ := Dispatcher.queue_setQueue inside worker'
  have workerOf (metric : String) : s'.dispatcher.workerOf metric = s.dispatcher.workerOf metric :=
    Dispatcher.workerOf_setQueue ..
  have after : ∀ p ∈ some (x, c), p.1 = x := by simp
  have here : s'.current x.metricKey = some (x, c) := by
    rw [Workshop.current, workerOf, home]
    simp [s']
  have elsewhere {metric : String} (other : x.metricKey ≠ metric) : s'.current metric = s.current metric :=
    current_other (Dispatcher.size_setQueue ..) rfl (by simp [free]) after other
  refine ⟨⟨fun worker' x' mem => ?_, fun worker' x' c there => ?_, fun metric => ?_⟩, here, elsewhere⟩
  · rw [workerOf]
    rw [queue] at mem
    split at mem
    · next same => exact same ▸ orderly.queued worker x' (waits ▸ List.mem_cons_of_mem _ mem)
    · exact orderly.queued worker' x' mem
  · rw [workerOf]
    exact orderly.taken_update home after worker' x' c there
  · have order := orderly.order metric
    by_cases other : x.metricKey = metric
    · subst other
      have split : Sample.of x.metricKey (x :: rest) = x :: Sample.of x.metricKey rest :=
        List.filter_cons_of_pos (by simp)
      rw [orderly.current_free free waits, home, waits, split] at order
      rw [here, workerOf, home, queue, if_pos rfl, order]
      simp [s']
    · rw [elsewhere other, workerOf, queue, order]
      split
      · next there =>
        rw [there, waits, ← List.singleton_append, Sample.of_append, Sample.of_other other, List.nil_append]
      · rfl

/-- The call of a worker gets to `c'`. -/
theorem move {c : CallThread Reply} (orderly : s.Orderly samples finished) (w' : World) (c' : CallThread Reply)
    (there : s.busy worker = some (x, c)) :
    let s' : Workshop := { s with world := w', busy := update s.busy worker (some (x, c')) }
    s'.Orderly samples finished ∧ s'.current x.metricKey = some (x, c') ∧
      ∀ {metric}, x.metricKey ≠ metric → s'.current metric = s.current metric := by
  intro s'
  have home : s.dispatcher.workerOf x.metricKey = worker := orderly.taken worker x c there
  have mine : s'.current x.metricKey = some (x, c') := by
    rw [Workshop.current, home]
    simp [s']
  have after : ∀ p ∈ some (x, c'), p.1 = x := by simp
  have elsewhere {metric : String} (other : x.metricKey ≠ metric) : s'.current metric = s.current metric :=
    current_other rfl rfl (by simp [there]) after other
  refine ⟨⟨orderly.queued, orderly.taken_update home after, fun metric => ?_⟩, mine, elsewhere⟩
  have order := orderly.order metric
  by_cases other : x.metricKey = metric
  · subst other
    rw [orderly.current_busy there] at order
    rw [mine]
    exact order
  · rw [elsewhere other]
    exact order

/-- A call is over, and its worker is free again. -/
theorem finish {c : CallThread Reply} (orderly : s.Orderly samples finished) (events : List Event)
    (there : s.busy worker = some (x, c)) :
    let s' : Workshop := { s with dispatcher := s.dispatcher.finish worker events, busy := update s.busy worker none }
    s'.Orderly samples (finished ++ [x]) ∧ s'.current x.metricKey = none ∧
      ∀ {metric}, x.metricKey ≠ metric → s'.current metric = s.current metric := by
  intro s'
  have home : s.dispatcher.workerOf x.metricKey = worker := orderly.taken worker x c there
  have size : s'.dispatcher.size = s.dispatcher.size := Dispatcher.size_finish ..
  have workerOf (metric : String) : s'.dispatcher.workerOf metric = s.dispatcher.workerOf metric :=
    Dispatcher.workerOf_finish ..
  have queue (worker' : Nat) : s'.dispatcher.queue worker' = s.dispatcher.queue worker' := Dispatcher.queue_finish ..
  have free : s'.current x.metricKey = none := by
    rw [Workshop.current, workerOf, home]
    simp [s']
  have after : ∀ p ∈ (none : Option (Sample × CallThread Reply)), p.1 = x := by simp
  have elsewhere {metric : String} (other : x.metricKey ≠ metric) : s'.current metric = s.current metric :=
    current_other size rfl (by simp [there]) after other
  refine ⟨⟨fun worker' x' mem => ?_, fun worker' x' c there => ?_, fun metric => ?_⟩, free,
    elsewhere⟩
  · rw [workerOf]
    exact orderly.queued worker' x' (queue worker' ▸ mem)
  · rw [workerOf]
    exact orderly.taken_update home after worker' x' c there
  · have order := orderly.order metric
    rw [Sample.of_append, workerOf, queue]
    by_cases other : x.metricKey = metric
    · subst other
      have self : Sample.of x.metricKey [x] = [x] := List.filter_cons_of_pos (by simp)
      rw [orderly.current_busy there] at order
      rw [free, self, order]
      simp only [Option.map_some, Option.toList_some, Option.map_none, Option.toList_none, List.append_nil]
      rfl
    · rw [elsewhere other, Sample.of_other other, List.append_nil]
      exact order

theorem all_finished (orderly : s.Orderly samples finished) (shut : s.Shut) (metric : String) :
    s.current metric = none ∧ Sample.of metric finished = Sample.of metric samples := by
  have idle : s.current metric = none := by
    rw [current, shut.busy]
    rfl
  have none : Sample.of metric [] = [] := rfl
  have order := orderly.order metric
  rw [idle, shut.queues, shut.coming, none] at order
  simp only [Option.map_none, Option.toList_none, List.append_nil] at order
  exact ⟨idle, order.symm⟩

end Orderly

/-! ### Steps -/

theorem Sound.orderly (sound : s.Sound w₀ samples log) : s.Orderly samples (log.map (·.1)) :=
  ⟨sound.queued, sound.taken, sound.order⟩

theorem Sound.same {d : Dispatcher} {producer : Producer} (sound : s.Sound w₀ samples log)
    (size : d.size = s.dispatcher.size) (queue : ∀ worker, d.queue worker = s.dispatcher.queue worker)
    (summary : d.summary = s.dispatcher.summary) (coming : producer.coming = s.producer.coming) :
    Workshop.Sound w₀ samples log { s with dispatcher := d, producer } := by
  obtain ⟨orderly, current⟩ := sound.orderly.same size queue coming
  refine ⟨sound.keeps, sound.draws, summary.trans sound.summary, orderly.queued, orderly.taken,
    orderly.order, fun metric => ?_, sound.own⟩
  rw [current]
  exact sound.stage metric

theorem Sound.hand {coming : List Sample} {last : Bool} (sound : s.Sound w₀ samples log)
    (next : s.producer = .handing (x :: coming) last)
    (inside : s.dispatcher.workerOf x.metricKey < s.dispatcher.size) :
    let worker := s.dispatcher.workerOf x.metricKey
    Workshop.Sound w₀ samples log { s with
      dispatcher := s.dispatcher.setQueue worker (s.dispatcher.queue worker ++ [x])
      producer := .handing coming last } := by
  intro worker
  obtain ⟨orderly, current⟩ := sound.orderly.hand next inside
  refine ⟨sound.keeps, sound.draws, (Dispatcher.summary_setQueue inside _).trans sound.summary, orderly.queued, orderly.taken, orderly.order, fun metric => ?_, sound.own⟩
  rw [current]
  exact sound.stage metric

/-- A worker that is free begins with the oldest sample of its queue. -/
theorem Sound.take {rest : List Sample} (sound : s.Sound w₀ samples log) (free : s.busy worker = none)
    (waits : s.dispatcher.queue worker = x :: rest) :
    Workshop.Sound w₀ samples log { s with
      dispatcher := s.dispatcher.setQueue worker rest
      busy := update s.busy worker (some (x, .ready x.call.program)) } := by
  have inside : worker < s.dispatcher.size := Dispatcher.inside_of_waits waits
  obtain ⟨orderly, here, elsewhere⟩ := sound.orderly.take free waits (.ready x.call.program)
  refine ⟨sound.keeps, sound.draws, (Dispatcher.summary_setQueue inside _).trans sound.summary, orderly.queued, orderly.taken, orderly.order,
    fun metric => ?_, sound.own⟩
  by_cases other : x.metricKey = metric
  · subst other
    have stage := sound.stage x.metricKey
    rw [sound.orderly.current_free free waits] at stage
    rw [here]
    exact ⟨rfl, stage⟩
  · rw [elsewhere other]
    exact sound.stage metric

/-- The call of a worker is at `c`, and the world is `w'`. -/
theorem Sound.stage_after (sound : s.Sound w₀ samples log) (ready : w₀.Ready) {c c' : CallThread Reply}
    (there : s.busy worker = some (x, c)) (here : x.At w₀ (Sample.of x.metricKey (log.map (·.1)))
      (fun rule => Event.of rule (log.flatMap (·.2))) w' c')
    (keeps : s.world.Keeps (· ∉ (w₀.watchers x.metricKey).map Rule.id) w') (draws : s.world.Draws w') :
    Workshop.Sound w₀ samples log { s with world := w', busy := update s.busy worker (some (x, c')) } := by
  obtain ⟨orderly, mine, elsewhere⟩ := sound.orderly.move w' c' there
  refine ⟨sound.keeps.trans (keeps.mono fun away => away x.metricKey), sound.draws.trans draws, sound.summary,
    orderly.queued, orderly.taken, orderly.order, fun metric => ?_, sound.own⟩
  by_cases other : x.metricKey = metric
  · subst other
    rw [mine]
    exact here
  · rw [elsewhere other]
    have stage := sound.stage metric
    -- The rules of other metrics are left alone.
    have apart : s.world.Keeps (· ∈ (w₀.watchers metric).map Rule.id) w' := keeps.mono fun mem mem' => by
      obtain ⟨r, listed, rfl⟩ := List.mem_map.mp mem
      obtain ⟨r', listed', same⟩ := List.mem_map.mp mem'
      exact other (World.watchers_apart ready.rest listed' listed same).1
    cases current : s.current metric with
    | none =>
      rw [current] at stage
      exact fun r mem => (stage r mem).others (apart.mono fun same => same ▸ List.mem_map_of_mem mem)
    | some busy =>
      obtain ⟨x', c₁⟩ := busy
      rw [current] at stage
      have same : x'.metricKey = metric := by
        have := Option.mem_filter_iff.mp current
        simpa using this.2
      exact Sample.At.others stage (same ▸ apart)

theorem Sound.move (sound : s.Sound w₀ samples log) (ready : w₀.Ready) {c c' : CallThread Reply}
    (there : s.busy worker = some (x, c)) (move : CallThread.Move s.world c w' c') :
    Workshop.Sound w₀ samples log { s with world := w', busy := update s.busy worker (some (x, c')) } := by
  have here := sound.stage x.metricKey
  rw [sound.orderly.current_busy there] at here
  obtain ⟨here', keeps, draws⟩ := Sample.At.move ready sound.keeps.rules sound.keeps.reconciled here move
  exact sound.stage_after ready there here' keeps draws

theorem Sound.elsewhere (sound : s.Sound w₀ samples log) (change : s.world.Elsewhere w') :
    Workshop.Sound w₀ samples log { s with world := w' } := by
  refine ⟨sound.keeps.trans (change.keeps _), sound.draws.trans (change.notes.quiet (by simp)).draws, sound.summary,
    sound.queued, sound.taken, sound.order, fun metric => ?_, sound.own⟩
  have stage := sound.stage metric
  change match s.current metric with | none => _ | some (x, c) => _
  cases current : s.current metric with
  | none =>
    rw [current] at stage
    exact fun r mem => (stage r mem).others (change.keeps _)
  | some busy =>
    rw [current] at stage
    exact Sample.At.others stage (change.keeps _)

/-- Other metrics have other rules, of which nothing is told. -/
theorem Event.of_elsewhere {metric metric' : String} {events : List Event} {r : Rule} (rest : w₀.AtRest)
    (named : ∀ e ∈ events, e.ruleId ∈ (w₀.watchers metric).map Rule.id) (other : metric ≠ metric')
    (mem : r ∈ w₀.watchers metric') (before : List Event) :
    Event.of r.id (before ++ events) = Event.of r.id before := by
  have none : Event.of r.id events = [] := Event.of_eq_nil fun e told same => by
    obtain ⟨r', listed, same'⟩ := List.mem_map.mp (named e told)
    exact other (World.watchers_apart rest listed mem (same'.trans same)).1
  rw [Event.of_append, none, List.append_nil]

/-- A call that is finished is counted, and its worker is free again. -/
theorem Sound.finish {events : List Event} (sound : s.Sound w₀ samples log) (ready : w₀.Ready)
    (inside : worker < s.dispatcher.size) (there : s.busy worker = some (x, .finished (.events events))) :
    Workshop.Sound w₀ samples (log ++ [(x, events)])
      { s with dispatcher := s.dispatcher.finish worker events, busy := update s.busy worker none } := by
  obtain ⟨orderly, free, elsewhere⟩ := sound.orderly.finish events there
  have here := sound.stage x.metricKey
  rw [sound.orderly.current_busy there] at here
  obtain ⟨news, made, each⟩ := here
  obtain rfl := Reply.events.inj made
  have own : List.Forall₂ (fun r new => ∀ e ∈ new, e.ruleId = r.id) (w₀.watchers x.metricKey) news :=
    each.imp fun r new judged e mem => judged.named ready.rest e (List.mem_append_right _ mem)
  obtain ⟨apart, named⟩ := Event.of_flatten (ready.rest.watchers_once x.metricKey) own
  have finished : (log ++ [(x, news.flatten)]).map (·.1) = log.map (·.1) ++ [x] := by simp
  have produced : (log ++ [(x, news.flatten)]).flatMap (·.2) = log.flatMap (·.2) ++ news.flatten := by simp
  rw [← finished] at orderly
  refine ⟨sound.keeps, sound.draws, ?_, orderly.queued, orderly.taken, orderly.order,
    fun metric => ?_, ?_⟩
  · rw [Dispatcher.summary_finish inside, sound.summary, produced, List.length_append, List.length_append]
    rfl
  · rw [finished, produced, Sample.of_append]
    by_cases other : x.metricKey = metric
    · subst other
      have self : Sample.of x.metricKey [x] = [x] := List.filter_cons_of_pos (by simp)
      rw [free, self]
      intro r mem
      obtain ⟨i, inside, rfl⟩ := List.mem_iff_getElem.mp mem
      have bound : i < news.length := each.length_eq ▸ inside
      have judged := each.get inside bound
      have same := apart.get inside bound
      rw [List.get_eq_getElem] at judged same
      rw [Event.of_append, same]
      exact judged
    · rw [elsewhere other, Sample.of_other other, List.append_nil]
      have stage := sound.stage metric
      cases current : s.current metric with
      | none =>
        rw [current] at stage
        exact fun r mem => (Event.of_elsewhere ready.rest named other mem _).symm ▸ stage r mem
      | some busy =>
        obtain ⟨x', c⟩ := busy
        rw [current] at stage
        have same : x'.metricKey = metric := by simpa using (Option.mem_filter_iff.mp current).2
        exact Sample.At.congr stage fun r mem => Event.of_elsewhere ready.rest named other (same ▸ mem) _
  · rw [produced]
    intro e mem
    rcases List.mem_append.mp mem with old | new
    · exact sound.own e old
    · exact ⟨x.metricKey, named e new⟩

/-- Whatever happens in the workshop, it stays sound. -/
theorem Sound.step (sound : s.Sound w₀ samples log) (staffed : s.Staffed) (ready : w₀.Ready)
    (step : Step World.Elsewhere s s') : ∃ log', s'.Sound w₀ samples log' := by
  cases step with
  | hand next room put =>
    obtain ⟨busy, rfl⟩ := Dispatcher.put_ok put
    exact ⟨log, sound.hand next (Dispatcher.inside_of_busy busy)⟩
  | refuse next put =>
    rw [Dispatcher.put_of_busy (staffed.accepts next)] at put
    cases put
  | close handed => exact ⟨log, sound.same rfl (fun _ => rfl) rfl (by rw [handed]; rfl)⟩
  | join waits ended => exact ⟨log, sound.same rfl (fun _ => rfl) rfl (by rw [waits]; rfl)⟩
  | take free gets =>
    obtain ⟨rest, waits, rfl⟩ := Dispatcher.receive_sample gets
    exact ⟨log, sound.take free waits⟩
  | leave free gets =>
    obtain ⟨-, -, busy, rfl⟩ := Dispatcher.receive_none gets
    have inside := Dispatcher.inside_of_busy busy
    exact ⟨log, sound.same (Dispatcher.size_setLane ..) (Dispatcher.queue_setLane rfl)
      (Dispatcher.summary_setLane inside rfl) rfl⟩
  | move there move => exact ⟨log, sound.move ready there move⟩
  | finish there =>
    exact ⟨_, sound.finish ready (Dispatcher.inside_of_busy (staffed.busy_of_taken there)) there⟩
  | outside change => exact ⟨log, sound.elsewhere change⟩

theorem Run.sound (run : Run World.Elsewhere s s') (ready : w₀.Ready) (sound : s.Sound w₀ samples log)
    (staffed : s.Staffed) : s'.Staffed ∧ ∃ log', s'.Sound w₀ samples log' := by
  induction run with
  | refl => exact ⟨staffed, log, sound⟩
  | tail _ step ih =>
    obtain ⟨staffed', log', sound'⟩ := ih
    exact ⟨staffed'.step step, sound'.step staffed' ready step⟩

end Workshop

end Workshops

end ThresholdAlerts
