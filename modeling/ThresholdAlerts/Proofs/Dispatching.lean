import Mathlib.Logic.Relator
import ThresholdAlerts.Proofs.Lines
import ThresholdAlerts.Proofs.Shifts
import ThresholdAlerts.Proofs.Workshops
/-! Dispatching samples to workers and taking them one after the other. Main statement: whatever the number of
workers, their queues and the order in which their calls move, every rule comes to the same as in sequence once the
dispatcher is shut down; and so it does with the dispatcher that is executed. -/
namespace ThresholdAlerts

open Function Relation

/-- What happened since `w` was accepted by the sink. -/
def World.Accepts (w w' : World) : Prop :=
  ∃ news, w'.journal = news ++ w.journal ∧ Happening.AllAccepted news

def Happening.refused? : Happening → Option SinkError
  | .answered _ (.error error) => some error
  | _ => none

theorem Happening.allAccepted_iff {news : List Happening} :
    AllAccepted news ↔ news.all (·.refused?.isNone) = true := by
  rw [List.all_eq_true]
  constructor
  · intro all n mem
    cases n with
    | answered e answer =>
      cases answer with
      | error error => exact absurd mem (all e error)
      | ok => rfl
    | _ => rfl
  · exact fun none e error mem => absurd (none _ mem) (by simp [refused?])

instance : DecidablePred Happening.AllAccepted := fun _ => decidable_of_iff _ Happening.allAccepted_iff.symm

/-- The calls that were made to the sink for a rule, the oldest first. -/
def Account.sent (a : Account) : List Event :=
  (a.past.filterMap Happening.sent?).reverse

/-- Ids stand for each other that were open before, or that a rule gave to the alerts that it opened, in order. -/
def World.StandFor (w : World) (events events' : List Event) (a b : AlertId) : Prop :=
  (∃ rule, a ∈ (w.firing rule).openAlertId ∧ a = b) ∨ ∃ rule,
    (a, b) ∈ (Event.opens (Event.of rule events)).zip (Event.opens (Event.of rule events'))

/-- What comes of some samples since `w₀`: each rule judges those of its metric in order, and what it produces is
sent. Alerts are opened under ids that were not in use. -/
structure World.Yields (w₀ : World) (samples : List Sample) (events : List Event) (w : World) : Prop where
  follows : ∀ metric, ∀ r ∈ w₀.watchers metric,
    (w₀.firing r.id).Follows r (Sample.of metric samples) (Event.of r.id events) (w.firing r.id)
  others : ∀ rule, (∀ metric, rule ∉ (w₀.watchers metric).map Rule.id) →
    w.firing rule = w₀.firing rule ∧ Event.of rule events = []
  produced : ∀ rule, (w.account rule).produced = (w₀.account rule).produced ++ Event.of rule events
  sent : ∀ rule, (w.account rule).sent = (w₀.account rule).sent ++ Event.of rule events
  once : ∀ rule, (Event.opens (Event.of rule events)).Nodup
  apart : ∀ rule rule' id, id ∈ Event.opens (Event.of rule events) → id ∈ Event.opens (Event.of rule' events) →
    rule = rule'
  unused : ∀ rule rule', ∀ id ∈ Event.opens (Event.of rule events), id ∉ (w₀.firing rule').openAlertId

/-! ### Counting and pairing -/

theorem length_eq_of_filter {α κ : Type} [DecidableEq κ] {l l' : List α} (f : α → κ)
    (same : ∀ k, (l.filter (f · = k)).length = (l'.filter (f · = k)).length) : l.length = l'.length := by
  have counts (k : κ) : (l.map f).count k = (l'.map f).count k := by
    rw [List.count_eq_countP, List.count_eq_countP, List.countP_map, List.countP_map, List.countP_eq_length_filter,
      List.countP_eq_length_filter]
    exact same k
  simpa using (List.perm_iff_count.mpr counts).length_eq

theorem eq_iff_of_mem_zip {α β : Type} {l : List α} {l' : List β} {a a' : α} {b b' : β} (once : l.Nodup)
    (once' : l'.Nodup) (here : (a, b) ∈ l.zip l') (there : (a', b') ∈ l.zip l') : a = a' ↔ b = b' := by
  obtain ⟨i, inside, same⟩ := List.mem_iff_getElem.mp here
  obtain ⟨j, inside', same'⟩ := List.mem_iff_getElem.mp there
  rw [List.getElem_zip] at same same'
  obtain ⟨rfl, rfl⟩ := Prod.mk.inj same
  obtain ⟨rfl, rfl⟩ := Prod.mk.inj same'
  rw [once.getElem_inj_iff, once'.getElem_inj_iff]

section Dispatching

variable {w₀ w w' : World} {samples : List Sample} {events events' : List Event} {s : Workshop}
  {log : List (Sample × List Event)} {workers capacity : Nat} {total : DispatchSummary}

theorem World.Yields.biUnique (yields : w₀.Yields samples events w) (yields' : w₀.Yields samples events' w') :
    Relator.BiUnique (w₀.StandFor events events') := by
  have kept {a b : AlertId} {rule rule' : RuleId} (mem : (a, b) ∈
      (Event.opens (Event.of rule events)).zip (Event.opens (Event.of rule events'))) :
      a ∉ (w₀.firing rule').openAlertId ∧ b ∉ (w₀.firing rule').openAlertId :=
    ⟨yields.unused rule rule' a (List.of_mem_zip mem).1, yields'.unused rule rule' b (List.of_mem_zip mem).2⟩
  constructor
  · rintro a b c (⟨rule, isOpen, rfl⟩ | ⟨rule, mem⟩) (⟨rule', isOpen', rfl⟩ | ⟨rule', mem'⟩)
    · rfl
    · exact absurd isOpen (kept mem').2
    · exact absurd isOpen' (kept mem).2
    · obtain rfl := yields'.apart rule rule' c (List.of_mem_zip mem).2 (List.of_mem_zip mem').2
      exact (eq_iff_of_mem_zip (yields.once rule) (yields'.once rule) mem mem').mpr rfl
  · rintro a b c (⟨rule, isOpen, rfl⟩ | ⟨rule, mem⟩) (⟨rule', isOpen', rfl⟩ | ⟨rule', mem'⟩)
    · rfl
    · exact absurd isOpen (kept mem').1
    · exact absurd isOpen' (kept mem).1
    · obtain rfl := yields.apart rule rule' a (List.of_mem_zip mem).1 (List.of_mem_zip mem').1
      exact (eq_iff_of_mem_zip (yields.once rule) (yields'.once rule) mem mem').mp rfl

theorem FiringState.renamed_self {R : AlertId → AlertId → Prop} {r : Rule} {s : FiringState}
    (stands : ∀ id ∈ s.openAlertId, R id id) : s.Renamed R (· = ·) r s := by
  obtain ⟨rule, phase, fingerprint, seen⟩ := s
  refine ⟨rfl, ?_, Iff.rfl⟩
  cases phase with
  | clear => exact .clear
  | pending n => exact .pending n
  | opened id n => exact .opened (stands id rfl) rfl

/-- The same samples come to the same for each rule, but for the ids of new alerts. -/
theorem World.Yields.renamed (yields : w₀.Yields samples events w) (yields' : w₀.Yields samples events' w')
    (rule : RuleId) : List.Forall₂ (Event.Renamed (w₀.StandFor events events')) (Event.of rule events)
        (Event.of rule events') ∧
      (w'.firing rule).status = (w.firing rule).status ∧ (w'.firing rule).breaches = (w.firing rule).breaches := by
  by_cases watched : ∃ metric, rule ∈ (w₀.watchers metric).map Rule.id
  · obtain ⟨metric, listed⟩ := watched
    obtain ⟨r, mem, rfl⟩ := List.mem_map.mp listed
    have self : (w₀.firing r.id).Renamed (w₀.StandFor events events') (· = ·) r (w₀.firing r.id) :=
      FiringState.renamed_self fun id isOpen => .inl ⟨r.id, isOpen, rfl⟩
    obtain ⟨each, last⟩ := (yields.follows metric r mem).renamed (yields'.follows metric r mem) self (fun _ => rfl)
      (fun n n' same => congrArg FiringState.oneMore same) fun pair there => .inr ⟨r.id, there⟩
    exact ⟨each, last.status, last.breaches⟩
  · have unwatched : ∀ metric, rule ∉ (w₀.watchers metric).map Rule.id := not_exists.mp watched
    obtain ⟨same, none⟩ := yields.others rule unwatched
    obtain ⟨same', none'⟩ := yields'.others rule unwatched
    rw [none, none', same, same']
    exact ⟨.nil, rfl, rfl⟩

/-! ### What a workshop comes to -/

theorem Workshop.Sound.all_finished (sound : s.Sound w₀ samples log) (shut : s.Shut) (metric : String) :
    Sample.of metric (log.map (·.1)) = Sample.of metric samples ∧ ∀ r ∈ w₀.watchers metric,
      w₀.HasJudged r (Sample.of metric samples) (Event.of r.id (log.flatMap (·.2))) s.world := by
  obtain ⟨idle, all⟩ := sound.orderly.all_finished shut metric
  have stage := sound.stage metric
  rw [idle, all] at stage
  exact ⟨all, stage⟩

/-- What a rule produced and what was sent for it, when the workshop is shut. -/
theorem Workshop.Sound.told (sound : s.Sound w₀ samples log) (shut : s.Shut) {news : List Happening}
    (grown : s.world.journal = news ++ w₀.journal) (all : Happening.AllAccepted news) (rule : RuleId) :
    ((news.filter (·.ruleId = rule)).filterMap Happening.produced?).reverse = Event.of rule (log.flatMap (·.2)) ∧
      ((news.filter (·.ruleId = rule)).filterMap Happening.sent?).reverse = Event.of rule (log.flatMap (·.2)) := by
  have past := World.past_of_journal grown rule
  by_cases watched : ∃ metric, rule ∈ (w₀.watchers metric).map Rule.id
  · obtain ⟨metric, listed⟩ := watched
    obtain ⟨r, mem, rfl⟩ := List.mem_map.mp listed
    obtain ⟨h, own, vacant, follows, accepted⟩ := (sound.all_finished shut metric).2 r mem
    obtain rfl := List.append_cancel_right (vacant.past.symm.trans past)
    exact (accepted fun e error there => all e error (List.mem_filter.mp there).1).2
  · have unwatched : ∀ metric, rule ∉ (w₀.watchers metric).map Rule.id := not_exists.mp watched
    have silent : news.filter (·.ruleId = rule) = [] :=
      List.append_left_eq_self.mp (past.symm.trans (sound.keeps.past unwatched))
    have none : Event.of rule (log.flatMap (·.2)) = [] := Event.of_eq_nil fun e mem same => by
      obtain ⟨metric, listed⟩ := sound.own e mem
      exact unwatched metric (same ▸ listed)
    rw [silent, none]
    exact ⟨rfl, rfl⟩

theorem Workshop.Sound.yields (sound : s.Sound w₀ samples log) (ready : w₀.Ready) (shut : s.Shut)
    (accepted : w₀.Accepts s.world) : w₀.Yields samples (log.flatMap (·.2)) s.world := by
  obtain ⟨news, grown, all⟩ := accepted
  have told := sound.told shut grown all
  have past := World.past_of_journal grown
  -- All that was opened was opened under ids that were drawn.
  have opened : Event.opens (news.filterMap Happening.produced?) = (w₀.ids.drawn s.world.ids).reverse := by
    have openings := sound.draws.openings
    rw [World.openings, grown, List.filterMap_append, Event.opens_append] at openings
    exact List.append_cancel_right openings
  have drawn : (Event.opens (news.filterMap Happening.produced?)).Nodup := by
    rw [opened, List.nodup_reverse]
    exact List.Nodup.map ready.distinct List.nodup_range'
  have known {rule : RuleId} {e : Event} (mem : e ∈ Event.of rule (log.flatMap (·.2))) :
      e ∈ news.filterMap Happening.produced? := by
    rw [← (told rule).1, List.mem_reverse] at mem
    exact (List.filter_sublist.filterMap _).subset mem
  refine ⟨fun metric r mem => ?_, fun rule unwatched => ⟨?_, ?_⟩, fun rule => ?_, fun rule => ?_, fun rule => ?_,
    fun rule rule' id mem mem' => ?_, fun rule rule' id mem isOpen => ?_⟩
  · obtain ⟨h, own, vacant, follows, -⟩ := (sound.all_finished shut metric).2 r mem
    rw [World.firing_eq s.world, vacant.held]
    exact follows
  · exact congrArg Slot.state (sound.keeps.slot unwatched)
  · refine Event.of_eq_nil fun e mem same => ?_
    obtain ⟨metric, listed⟩ := sound.own e mem
    exact unwatched metric (same ▸ listed)
  · rw [Account.produced, past, List.filterMap_append, List.reverse_append, (told rule).1]
    rfl
  · rw [Account.sent, past, List.filterMap_append, List.reverse_append, (told rule).2]
    rfl
  · rw [← (told rule).1, Event.opens, List.filterMap_reverse, List.nodup_reverse]
    exact drawn.sublist ((List.filter_sublist.filterMap _).filterMap _)
  · obtain ⟨e, there, opens⟩ := Event.mem_opens.mp mem
    obtain ⟨e', there', opens'⟩ := Event.mem_opens.mp mem'
    obtain rfl := inj_of_nodup_filterMap drawn (known there) (known there') opens opens'
    exact (of_decide_eq_true (List.mem_filter.mp there).2).symm.trans (of_decide_eq_true (List.mem_filter.mp there').2)
  · obtain ⟨e, there, opens⟩ := Event.mem_opens.mp mem
    have mem : id ∈ (w₀.ids.drawn s.world.ids).reverse := opened ▸ Event.mem_opens.mpr ⟨e, known there, opens⟩
    obtain ⟨n, taken, -, rfl⟩ := Supply.mem_drawn.mp (List.mem_reverse.mp mem)
    exact ready.unused rule' _ isOpen n taken rfl

/-! ### One sample after the other -/

theorem Workshop.Sound.moves (ready : w₀.Ready) {worker : Nat} {x : Sample} {a b : World × CallThread Reply}
    (moves : ReflTransGen (fun (a b : World × CallThread Reply) => CallThread.Move a.1 a.2 b.1 b.2) a b)
    (sound : Workshop.Sound w₀ samples log { s with world := a.1, busy := update s.busy worker (some (x, a.2)) }) :
    Workshop.Sound w₀ samples log { s with world := b.1, busy := update s.busy worker (some (x, b.2)) } := by
  induction moves with
  | refl => exact sound
  | tail _ move ih =>
    have moved := ih.move ready (update_self ..) move
    dsimp only at moved
    rw [update_idem] at moved
    exact moved

theorem Workshop.Sound.completes (ready : w₀.Ready) {worker : Nat} {x : Sample} {c : CallThread Reply} {reply : Reply}
    (completes : CallThread.Completes World.Elsewhere w c w' reply)
    (sound : Workshop.Sound w₀ samples log { s with world := w, busy := update s.busy worker (some (x, c)) }) :
    Workshop.Sound w₀ samples log
      { s with world := w', busy := update s.busy worker (some (x, .finished reply)) } := by
  induction completes with
  | finished => exact sound
  | polled waits change rest ih => exact ih (.moves ready (CallThread.moves_poll _ _) (sound.elsewhere change))

structure Workshop.Idle (s : Workshop) : Prop where
  queues : ∀ worker, s.dispatcher.queue worker = []
  busy : ∀ worker, s.busy worker = none

/-- A sample that is taken while all workers are idle goes through the queue of its worker. -/
theorem Workshop.Sound.passage (ready : w₀.Ready) (sound : s.Sound w₀ samples log) (idle : s.Idle) {p : Passage}
    (gap : s.world.Elsewhere p.before) (ran : p.Runs World.Elsewhere) {x : Sample} {coming : List Sample}
    {last : Bool}
    (workers : 0 < s.dispatcher.size) (next : s.producer = .handing (x :: coming) last) (call : p.call = x.call) :
    ∃ (s' : Workshop) (events : List Event), s'.Sound w₀ samples (log ++ [(x, events)]) ∧ s'.Idle ∧
      s'.world = p.after ∧ 0 < s'.dispatcher.size ∧ s'.producer = .handing coming last ∧ p.reply = .events events := by
  have inside := Dispatcher.workerOf_lt workers x.metricKey
  have handed := (sound.elsewhere gap).hand next inside
  dsimp only at handed
  generalize s.dispatcher.workerOf x.metricKey = worker at handed inside
  rw [idle.queues, List.nil_append] at handed
  have queue : ∀ worker', (s.dispatcher.setQueue worker [x]).queue worker' = _ := Dispatcher.queue_setQueue inside
  generalize s.dispatcher.setQueue worker [x] = d at handed queue
  have waits : d.queue worker = [x] := by rw [queue, if_pos rfl]
  have inside' : worker < d.size := Dispatcher.inside_of_waits waits
  have taken := handed.take (idle.busy worker) waits
  dsimp only at taken
  rw [← call] at taken
  let away : Workshop :=
    { world := p.before, dispatcher := d.setQueue worker [], producer := .handing coming last, busy := s.busy }
  have begun := Workshop.Sound.moves (s := away) ready (CallThread.moves_poll (.ready p.call.program) p.before) taken
  have finished := begun.completes ready ran
  have stage := finished.stage x.metricKey
  rw [finished.orderly.current_busy (update_self ..)] at stage
  obtain ⟨news, reply, -⟩ := stage
  rw [reply] at finished
  have inside'' : worker < (d.setQueue worker []).size := by rwa [Dispatcher.size_setQueue]
  refine ⟨_, _, finished.finish ready inside'' (update_self ..), ⟨fun worker' => ?_, fun worker' => ?_⟩, rfl, ?_, rfl,
    reply⟩
  · change ((d.setQueue worker []).finish worker news.flatten).queue worker' = []
    rw [Dispatcher.queue_finish, Dispatcher.queue_setQueue inside', queue]
    split
    · rfl
    · exact idle.queues worker'
  · change update (update s.busy worker _) worker none worker' = none
    rw [update_idem, update_apply]
    split
    · rfl
    · exact idle.busy worker'
  · change 0 < ((d.setQueue worker []).finish worker news.flatten).size
    rw [Dispatcher.size_finish]
    exact Nat.zero_lt_of_lt inside''

/-- Samples that are taken one after the other are handed to one worker at a time. -/
theorem Workshop.Sound.course (ready : w₀.Ready) {ps : List Passage}
    (course : Course (Passage.Runs World.Elsewhere) World.Elsewhere w ps w') (here : s.world = w)
    (sound : s.Sound w₀ samples log) (idle : s.Idle) (workers : 0 < s.dispatcher.size) {coming : List Sample}
    {last : Bool} (next : s.producer = .handing coming last) (calls : ps.map Passage.call = coming.map Sample.call) :
    ∃ (s' : Workshop) (news : List (Sample × List Event)), s'.Sound w₀ samples (log ++ news) ∧ s'.Shut ∧
      s'.world = w' ∧ ps.map Passage.reply = news.map (Reply.events ·.2) := by
  induction course generalizing s log coming with
  | nil w =>
    obtain rfl : coming = [] := List.map_eq_nil_iff.mp calls.symm
    exact ⟨s, [], by rwa [List.append_nil], ⟨by rw [next]; rfl, idle.queues, idle.busy⟩, here, rfl⟩
  | @cons w p ps w' gap ran rest ih =>
    obtain ⟨x, coming, rfl, call, calls⟩ := List.map_eq_cons_iff.mp calls.symm
    subst here
    obtain ⟨s₁, events, sound₁, idle₁, world, workers₁, next₁, reply⟩ :=
      sound.passage ready idle gap ran workers next call.symm
    obtain ⟨s', news, sound', shut, last, replies⟩ := ih world sound₁ idle₁ workers₁ next₁ calls.symm
    refine ⟨s', (x, events) :: news, by rwa [List.append_cons], shut, last, ?_⟩
    rw [List.map_cons, List.map_cons, reply, replies]

/-! ### Both ways come to the same -/

/-- When all workers are joined each rule has come to what its samples come to, and all of it was counted. -/
theorem Workshop.Run.yields (run : Workshop.Run World.Elsewhere (.opened w workers capacity samples) s)
    (ready : w.Ready) (joined : s.Joined total) (accepted : w.Accepts s.world) :
    ∃ events, total = { samples := samples.length, events := events.length } ∧ w.Yields samples events s.world := by
  obtain ⟨staffed, log, sound⟩ :=
    run.sound ready (sound_opened ready workers capacity samples) (staffed_opened w workers capacity samples)
  obtain ⟨shut, rfl⟩ := staffed.shut joined
  have count : (log.map (·.1)).length = samples.length :=
    length_eq_of_filter Sample.metricKey fun metric => congrArg List.length (sound.all_finished shut metric).1
  exact ⟨log.flatMap (·.2), by rw [sound.summary, ← count, List.length_map], sound.yields ready shut accepted⟩

theorem Course.made (ready : w.Ready) {ps : List Passage}
    (course : Course (Passage.Runs World.Elsewhere) World.Elsewhere w ps w')
    (calls : ps.map Passage.call = samples.map Sample.call) (accepted : w.Accepts w') :
    ∃ made : List (List Event), ps.map Passage.reply = made.map Reply.events ∧ w.Yields samples made.flatten w' := by
  -- It is as if they went through a dispatcher with one worker.
  have idle : (Workshop.opened w 1 1 samples).Idle := ⟨fun _ => Dispatcher.queue_make .., fun _ => rfl⟩
  obtain ⟨s, log, sound, shut, rfl, replies⟩ :=
    (Workshop.sound_opened ready 1 1 samples).course ready course rfl idle Nat.one_pos rfl calls
  rw [List.nil_append] at sound
  have flat : log.flatMap (·.2) = (log.map (·.2)).flatten := List.flatMap_def
  exact ⟨log.map (·.2), by rw [replies, List.map_map]; rfl, flat ▸ sound.yields ready shut accepted⟩

/-- What is executed: the samples are handed over, and the dispatcher is shut down. -/
theorem Workshop.run_shutdown (alone : w.Solitary .free) (workers capacity : Nat) (samples : List Sample) :
    let sent := (Dispatcher.make workers capacity).sendAll samples w
    let ended := sent.2.shutdown sent.1
    ∃ s, Run World.Elsewhere (.opened w workers capacity samples) s ∧ s.world = ended.1 ∧
      s.dispatcher = ended.2.1 ∧ s.Joined ended.2.2 := by
  intro sent ended
  obtain ⟨handed, rest⟩ := (resting_opened alone workers capacity samples).sendAll World.Idles.elsewhere rfl
  obtain ⟨closed, -⟩ := rest.shutdown World.Idles.elsewhere rfl
  exact ⟨_, handed.trans closed, rfl, rfl, rfl⟩

/-- A dispatcher takes all samples that are handed to it, and while none of its workers is at a call there is something
to do until it is shut down. Then all samples and events are counted, and in whatever order the calls of the workers
moved, every rule has come to the status and the count of breaches, and to the events and the calls to the sink, to
which it comes if the samples are taken one after the other, but for the ids of new alerts. The dispatcher that is
executed comes to such an end. -/
theorem Workshop.Run.in_sequence (ready : w.Ready) {ps : List Passage}
    (course : Course (Passage.Runs World.Elsewhere) World.Elsewhere w ps w')
    (calls : ps.map Passage.call = samples.map Sample.call) (accepted : w.Accepts w') (workers capacity : Nat) :
    ∃ made : List (List Event), ps.map Passage.reply = made.map Reply.events ∧
      (∀ s, Run World.Elsewhere (.opened w workers capacity samples) s →
        (∀ cause, s.producer ≠ .refused cause) ∧
        ((∀ worker, s.busy worker = none) → (∃ total, s.Joined total) ∨ ∃ s', Step (fun _ _ => False) s s') ∧
        ∀ total, s.Joined total → w.Accepts s.world →
          total = { samples := samples.length, events := made.flatten.length } ∧
          ∃ R : AlertId → AlertId → Prop, Relator.BiUnique R ∧
            (∀ rule, ∀ id ∈ (w.firing rule).openAlertId, R id id) ∧
            ∀ rule, (s.world.firing rule).status = (w'.firing rule).status ∧
              (s.world.firing rule).breaches = (w'.firing rule).breaches ∧
              ∃ events, List.Forall₂ (Event.Renamed R) (Event.of rule made.flatten) events ∧
                (w'.account rule).produced = (w.account rule).produced ++ Event.of rule made.flatten ∧
                (s.world.account rule).produced = (w.account rule).produced ++ events ∧
                (w'.account rule).sent = (w.account rule).sent ++ Event.of rule made.flatten ∧
                (s.world.account rule).sent = (w.account rule).sent ++ events) ∧
      (w.Solitary .free →
        let sent := (Dispatcher.make workers capacity).sendAll samples w
        let ended := sent.2.shutdown sent.1
        ∃ s, Run World.Elsewhere (.opened w workers capacity samples) s ∧ s.world = ended.1 ∧
          s.dispatcher = ended.2.1 ∧ s.Joined ended.2.2) := by
  obtain ⟨made, replies, yields₁⟩ := course.made ready calls accepted
  refine ⟨made, replies, fun s run => ?_, fun alone => run_shutdown alone workers capacity samples⟩
  have staffed := run.staffed (staffed_opened w workers capacity samples)
  refine ⟨fun cause refused => ?_, fun idle => ?_, fun total joined accepted => ?_⟩
  · have fits := staffed.producer
    rw [refused] at fits
    exact fits
  · rcases staffed.goes_on idle with ends | more | goes
    · exact .inl ends
    · exact absurd more (run.complete (fun _ => nofun) [])
    · exact .inr goes
  · obtain ⟨events, rfl, yields⟩ := run.yields ready joined accepted
    have count : events.length = made.flatten.length :=
      length_eq_of_filter Event.ruleId fun rule => (yields.renamed yields₁ rule).1.length_eq
    refine ⟨by rw [count], _, yields₁.biUnique yields, fun rule id isOpen => .inl ⟨rule, isOpen, rfl⟩, fun rule => ?_⟩
    obtain ⟨each, status, breaches⟩ := yields₁.renamed yields rule
    exact ⟨status, breaches, _, each, yields₁.produced rule, yields.produced rule, yields₁.sent rule,
      yields.sent rule⟩

end Dispatching

/-- A new engine has loaded its rules. -/
theorem Call.Comes.ready {outside : World → World → Prop} {w w' : World} {c : Config} {reply : Reply}
    (new : w.engine = .ofConfig c) (distinct : Injective w.ids.value) (comes : Call.Comes outside .refresh w reply w') :
    w'.Ready := by
  have line := World.inLine_new new
  have untracked (rule : RuleId) : w.engine.tracker.held rule = none := by rw [new]; rfl
  have absent (rule : RuleId) : rule ∉ w.engine.tracker.ruleIds := fun mem =>
    Tracker.mem_ruleIds.mp mem (Tracker.find?_eq_none.mpr (untracked rule))
  obtain ⟨fresh, ids, held⟩ : w'.engine.rules.invalidated = false ∧ w'.ids = w.ids ∧
      ∀ rule, w'.engine.tracker.held rule = none := by
    cases comes with
    | notRefreshed fetched =>
      exact ⟨fetched.invalidated, fetched.ids, fun rule => by rw [fetched.tracker, untracked]⟩
    | refreshed fetched source takes =>
      rw [takes.rules]
      obtain ⟨each, -, aligned⟩ := takes.claimed line fetched
      refine ⟨fetched.invalidated, aligned.ids.trans fetched.ids, fun rule => ?_⟩
      rw [aligned.others rule (absent rule), ← untracked rule, ← fetched.tracker]
      rfl
  have line' := comes.inLine line
  refine ⟨line'.rest, fresh, Nat.le_of_eq line'.reconciled.symm, fun rule => ?_, ids ▸ distinct,
    fun rule id isOpen => ?_⟩
  · rw [(line'.rest.vacant rule).account, held]
    rfl
  · rw [World.firing_eq, held] at isOpen
    exact absurd isOpen nofun

/-- The load rises and falls again, and both samples wait for the same worker when the queues are closed. -/
theorem Workshop.Run.in_sequence_rising :
    let w := (Passage.made .refresh (.watched { workers := 1 } {})).after
    let samples : List Sample := [⟨"load", 95, default⟩, ⟨"load", 50, default⟩]
    let sent := (Dispatcher.make 2 2).sendAll samples w
    let ended := sent.2.shutdown sent.1
    let ps := Passage.madeEach w (samples.map fun x => (id, x.call))
    (sent.2.queue (sent.2.workerOf "load")).length = 2 ∧ ended.2.2 = { samples := 2, events := 2 } ∧
      ∃ (w' : World) (made : List (List Event)), Course (Passage.Runs World.Elsewhere) World.Elsewhere w ps w' ∧
        ps.map Passage.reply = made.map Reply.events ∧ ∃ R, Relator.BiUnique R ∧ ∀ rule, ∃ events,
          List.Forall₂ (Event.Renamed R) (Event.of rule made.flatten) events ∧
          (ended.1.account rule).sent = (w.account rule).sent ++ events := by
  intro w samples sent ended ps
  have still (w : World) : w.Elsewhere w := ⟨_, _, _, _, _, _, _, Nat.le_refl _, rfl⟩
  have loaded : (Passage.made .refresh (.watched { workers := 1 } {})).Runs World.Elsewhere :=
    Passage.runs_made (by decide +kernel)
  have begun : (World.watched { workers := 1 } {}).InLine := World.inLine_new rfl
  have ready : w.Ready := (loaded.comes begun.rest id trivial).ready rfl (World.injective_watched _ _)
  have alone : w.Solitary .free := Scene.Run.solitary rfl
    (Scene.run_make { world := World.watched { workers := 1 } {} } (Call.admitted_mixed .refresh))
    (Scene.allFinished_of_results (by decide +kernel))
  have course : Course (Passage.Runs World.Elsewhere) World.Elsewhere w ps (Passage.last w ps) := by
    refine Course.madeEach (fun c mem w => ?_) (by decide +kernel)
    obtain ⟨x, -, rfl⟩ := List.mem_map.mp mem
    exact still w
  have calls : ps.map Passage.call = samples.map Sample.call := by
    rw [Passage.calls_madeEach, List.map_map]
    rfl
  have quiet : w.journal = [] := List.isEmpty_iff.mp (by decide +kernel)
  have accepted : w.Accepts ended.1 := ⟨ended.1.journal, by rw [quiet, List.append_nil], by decide +kernel⟩
  have accepted' : w.Accepts (Passage.last w ps) :=
    ⟨(Passage.last w ps).journal, by rw [quiet, List.append_nil], by decide +kernel⟩
  obtain ⟨made, replies, every, executed⟩ := Workshop.Run.in_sequence ready course calls accepted' 2 2
  obtain ⟨s, run, world, -, joined⟩ := executed alone
  have world : s.world = ended.1 := world
  obtain ⟨summary, R, unique, -, each⟩ := (every s run).2.2 _ joined (world ▸ accepted)
  refine ⟨by decide +kernel, by decide +kernel, _, made, course, replies, R, unique, fun rule => ?_⟩
  obtain ⟨-, -, events, renamed, -, -, -, told⟩ := each rule
  exact ⟨events, renamed, world ▸ told⟩

end ThresholdAlerts
