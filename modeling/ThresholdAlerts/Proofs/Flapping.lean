import ThresholdAlerts.Proofs.Acceptance
import ThresholdAlerts.Proofs.LateRecovery
import ThresholdAlerts.Proofs.Rebuilds
/-! A rule that flaps while the sink is away. Main statement: while the calls serve, and however they are
interleaved, no more than three events of a rule ever wait, so that none is given up for want of room: every
dead letter has the error with which the sink refused it. -/
namespace ThresholdAlerts

open Function Prog

/-! ### The account of a rule -/

variable {regime : Regime} {rule : RuleId} {m : Moment} {a a' : Account} {x x' : Option Work}

def Work.ahead (x : Option Work) : List Event :=
  (x.map fun work => work.stage.events ++ work.todo).getD []

/-- The events of a rule that are neither delivered nor given up nor cancelled, the oldest first. -/
def Account.line (a : Account) (x : Option Work) : List Event :=
  a.outbox.map (·.event) ++ Work.ahead x

def Work.Sends (work : Work) : Prop :=
  match work.stage with
  | .sending .. => True
  | _ => False

/-- What waits opens and closes alerts in turn. Behind the front nothing was tried, and an opening is the last
delivery there, for its end would have cancelled it. -/
structure Account.Flaps (a : Account) (x : Option Work) : Prop where
  alternates : ∃ start, Alternates start (a.line x) a.state.openAlertId
  untried : ∀ d ∈ a.outbox.tail, d.failures = 0
  ends : ∀ d ∈ a.outbox.tail.dropLast, d.event.isOpened = false
  alone : ∀ work ∈ x, work.Sends → a.outbox = []
  closed : a.retired = true → a.state.openAlertId = none

namespace Account.Flaps

/-- Two ends in a row do not alternate. -/
theorem length_le (h : a.Flaps x) : a.outbox.length ≤ 3 := by
  obtain ⟨⟨start, alternates⟩, -, ends, -, -⟩ := h
  rw [line] at alternates
  match waiting : a.outbox with
  | [] => exact Nat.zero_le _
  | [_] => exact Nat.le_of_ble_eq_true rfl
  | [_, _] => exact Nat.le_of_ble_eq_true rfl
  | [_, _, _] => exact Nat.le_refl _
  | front :: second :: third :: fourth :: rest =>
    rw [waiting] at alternates ends
    have early : second.event.isOpened = false := ends second (by simp)
    have late : third.event.isOpened = false := ends third (by simp)
    obtain ⟨mid, behind⟩ := alternates.tail
    simp only [List.map_cons] at behind
    cases first : second.event with
    | opened alert => exact absurd (first ▸ early) (by simp [Event.isOpened])
    | resolved id rule time reason =>
      rw [first] at behind
      cases next : third.event with
      | opened alert => exact absurd (next ▸ late) (by simp [Event.isOpened])
      | resolved id' rule' time' reason' =>
        rw [next] at behind
        exact absurd behind.after_resolved.2.after_resolved.1 (by simp)

theorem same (h : a.Flaps x) (line : a'.line x' = a.line x) (outbox : a'.outbox.tail = a.outbox.tail)
    (state : a'.state.openAlertId = a.state.openAlertId) (alone : ∀ work ∈ x', work.Sends → a'.outbox = [])
    (closed : a'.retired = true → a'.state.openAlertId = none) : a'.Flaps x' := by
  obtain ⟨alternates, untried, ends, -, -⟩ := h
  refine ⟨?_, ?_, ?_, alone, closed⟩
  · rw [line, state]
    exact alternates
  · rw [outbox]
    exact untried
  · rw [outbox]
    exact ends

theorem shift (h : a.Flaps x) (event : Event) (line : a.line x = event :: a'.line x')
    (outbox : a'.outbox = a.outbox.tail) (state : a'.state.openAlertId = a.state.openAlertId)
    (alone : ∀ work ∈ x', work.Sends → a'.outbox = [])
    (closed : a'.retired = true → a'.state.openAlertId = none) : a'.Flaps x' := by
  obtain ⟨⟨start, alternates⟩, untried, ends, -, -⟩ := h
  rw [line] at alternates
  refine ⟨?_, ?_, ?_, alone, closed⟩
  · rw [state]
    exact alternates.tail
  · rw [outbox]
    exact fun d mem => untried d (List.mem_of_mem_tail mem)
  · rw [outbox]
    have part : a.outbox.tail.tail.dropLast.Sublist a.outbox.tail.dropLast := by
      rw [← List.tail_dropLast]
      exact List.tail_sublist _
    exact fun d mem => ends d (part.subset mem)

/-- An event that cancels nothing comes behind deliveries of which all but the front are ends. -/
theorem joins (h : a.Flaps x) {event : Event} {rest : List Event} (ahead : Work.ahead x = event :: rest)
    (kept : a.outbox.cancelledBy? event = none) : ∀ d ∈ a.outbox.tail, d.event.isOpened = false := by
  obtain ⟨⟨start, alternates⟩, untried, ends, -, -⟩ := h
  intro d mem
  obtain ⟨front, waiting⟩ : ∃ front, a.outbox = front :: a.outbox.tail :=
    ⟨_, (List.cons_head_tail (List.ne_nil_of_mem (List.mem_of_mem_tail mem))).symm⟩
  rcases List.eq_nil_or_concat' a.outbox.tail with none | ⟨early, last, shape⟩
  · exact absurd (none ▸ mem) List.not_mem_nil
  · rw [shape, List.dropLast_concat] at ends
    have new := untried last (shape ▸ List.mem_append_right _ List.mem_cons_self)
    rw [shape, List.mem_append, List.mem_singleton] at mem
    rcases mem with before | rfl
    · exact ends d before
    · cases here : d.event with
      | resolved => rfl
      | opened alert =>
        -- What comes next is the end of the alert, and cancels its opening.
        rw [shape] at waiting
        rw [line, ahead, waiting, ← List.cons_append, List.map_append, List.append_assoc] at alternates
        obtain ⟨mid, -, late⟩ := alternates.split
        rw [List.map_singleton, here, List.singleton_append] at late
        obtain ⟨-, next⟩ := late.after_opened
        cases event with
        | opened alert' => exact absurd next.after_opened.1 (by simp)
        | resolved id rule time reason =>
          obtain rfl := Option.some.inj next.after_resolved.1
          rw [waiting, ← List.cons_append, Outbox.cancelledBy?, List.getLast?_concat, Option.filter_eq_none_iff]
            at kept
          exact absurd (kept d rfl) (by simp [Outbox.isUnsentOpening, here, new])

variable {event : Event} {todo : List Event} {d : Delivery}

/-- An alert is opened only where none is open, and closed only where it is. -/
theorem changed (h : a.Flaps (some { todo })) (c : FiringState.Change) (suits : c.Suits rule a.retired) :
    Account.Flaps
      { a with
        state := (a.state.apply c).1
        past := (a.state.apply c).2.toList.map .produced ++ a.past }
      (some { todo := todo ++ (a.state.apply c).2.toList }) := by
  obtain ⟨⟨start, alternates⟩, untried, ends, alone, closed⟩ := id h
  have outcome := a.state.apply_outcome c
  generalize (a.state.apply c).1 = state at *
  generalize (a.state.apply c).2 = event at *
  cases outcome with
  | still same =>
    exact h.same (by simp [Account.line, Work.ahead]) rfl same (by simp [Work.Sends])
      fun retired => same.trans (closed retired)
  | @closes id reason time was clear =>
    refine ⟨⟨start, ?_⟩, untried, ends, by simp [Work.Sends], fun _ => clear⟩
    rw [was] at alternates
    rw [clear]
    have longer : Alternates start (_ ++ [.resolved id a.state.ruleId time reason]) none := .resolved alternates
    simpa [Account.line, Work.ahead, Stage.events] using longer
  | @opens fresh r breached value time made was now =>
    refine ⟨⟨start, ?_⟩, untried, ends, by simp [Work.Sends], fun retired => ?_⟩
    · rw [was] at alternates
      rw [now]
      have longer : Alternates start (_ ++ [.opened (.ofRule fresh r value time)]) (some fresh) :=
        .opened alternates
      simpa [Account.line, Work.ahead, Stage.events] using longer
    · rw [made] at suits
      exact absurd (suits.2.symm.trans retired) Bool.false_ne_true

/-- The event that is handed over waits behind the others; before it no opening waits behind the front. -/
theorem queued (h : a.Flaps (some { todo, stage := .handed event })) (waits : a.outbox ≠ [])
    (kept : a.outbox.cancelledBy? event = none) (same : d.event = event) (new : d.failures = 0) :
    Account.Flaps { a with outbox := a.outbox ++ [d] } (some { todo }) := by
  obtain ⟨⟨start, alternates⟩, untried, ends, alone, closed⟩ := id h
  have behind : (a.outbox ++ [d]).tail = a.outbox.tail ++ [d] := List.tail_append_of_ne_nil waits
  refine ⟨⟨start, ?_⟩, ?_, ?_, by simp [Work.Sends], closed⟩
  · simpa [Account.line, Work.ahead, Stage.events, same] using alternates
  · rw [behind]
    intro d' mem
    rcases List.mem_append.mp mem with before | last
    · exact untried d' before
    · rw [List.mem_singleton.mp last]
      exact new
  · rw [behind, List.dropLast_concat]
    exact h.joins rfl kept

/-- An opening and its end that follow each other leave together, and the rest still alternates. -/
theorem cancelled (h : a.Flaps (some { todo, stage := .handed event }))
    (cancels : a.outbox.cancelledBy? event = some d) :
    Account.Flaps
      { a with outbox := a.outbox.dropLast, past := .cancelled d.event event :: a.past } (some { todo }) := by
  obtain ⟨⟨start, alternates⟩, untried, ends, alone, closed⟩ := h
  obtain ⟨shape, alert, opening, -, closing⟩ := Outbox.cancels_last cancels
  obtain ⟨rule', time, reason, rfl⟩ := Event.eq_resolved closing
  have behind : a.outbox.dropLast.tail = a.outbox.tail.dropLast := List.tail_dropLast
  refine ⟨⟨start, ?_⟩, ?_, ?_, by simp [Work.Sends], closed⟩
  · rw [Account.line, ← shape, List.map_append, List.append_assoc, List.map_singleton, opening] at alternates
    obtain ⟨mid, early, late⟩ := alternates.split
    obtain ⟨rfl, next⟩ := late.after_opened
    exact early.append next.after_resolved.2
  · rw [behind]
    exact fun d' mem => untried d' (List.dropLast_subset _ mem)
  · rw [behind]
    exact fun d' mem => ends d' (List.dropLast_subset _ mem)

end Account.Flaps

/-! ### Every turn -/

theorem Turn.flaps (turn : Turn .serving rule m a x a' x') (h : a.Flaps x) : a'.Flaps x' := by
  have few := h.length_le
  obtain ⟨-, -, -, alone, closed⟩ := id h
  cases turn with
  | taken revives =>
    refine h.same rfl rfl rfl (by simp [Work.Sends]) fun retired => ?_
    rcases revives with same | kept
    · exact closed (same ▸ retired)
    · exact absurd (kept.symm.trans retired) Bool.false_ne_true
  | changed c serves suits => exact h.changed c suits
  | idle => exact h
  | retire spent =>
    have shut : a.state.isOpen = false := spent.resolve_right fun mixes => mixes.1 rfl
    exact h.same rfl rfl rfl (by simp [Work.Sends]) fun _ => isOpen_eq_false.mp shut
  | seeded alertId recovers => exact absurd rfl recovers
  | hand => exact h.same (by simp [Account.line, Work.ahead, Stage.events]) rfl rfl (by simp [Work.Sends]) closed
  | handStray recovers => exact absurd rfl recovers
  | queued waits kept room same new => exact h.queued waits kept same new
  | cancelled cancels => exact h.cancelled cancels
  | overflow kept full => exact absurd (Nat.le_trans full few) (by decide)
  | sent empty => exact h.same rfl rfl rfl (fun _ _ _ => empty) closed
  | acted => exact h.same rfl rfl rfl (fun _ _ _ => alone _ rfl trivial) closed
  | @accepted event todo flight =>
    have empty := alone _ rfl trivial
    exact h.shift event (by simp [Account.line, Work.ahead, Stage.events, empty]) (by simp [empty]) rfl
      (by simp [Work.Sends]) closed
  | refused => exact h.same rfl rfl rfl (by simp [Work.Sends]) closed
  | @postponed event todo error d empty same =>
    exact h.same (by simp [Account.line, Work.ahead, Stage.events, empty, same]) (by simp [empty]) rfl
      (by simp [Work.Sends]) closed
  | @dropped event todo error empty =>
    exact h.shift event (by simp [Account.line, Work.ahead, Stage.events, empty]) (by simp [empty]) rfl
      (by simp [Work.Sends]) closed
  | drains => exact h.same rfl rfl rfl (by simp [Work.Sends]) closed
  | drained => exact h.same rfl rfl rfl (by simp [Work.Sends]) closed
  | resent => exact h.same rfl rfl rfl (by simp [Work.Sends]) closed
  | actedAgain => exact h.same rfl rfl rfl (by simp [Work.Sends]) closed
  | acceptedAgain => exact h.same rfl rfl rfl (by simp [Work.Sends]) closed
  | refusedAgain => exact h.same rfl rfl rfl (by simp [Work.Sends]) closed
  | @delivered front rest due =>
    exact h.shift front.event (by simp [Account.line, Work.ahead, Stage.events, due]) (by simp [due]) rfl
      (by simp [Work.Sends]) closed
  | @delayed front front' rest error due same =>
    exact h.same (by simp [Account.line, Work.ahead, Stage.events, due, same]) (by simp [due]) rfl
      (by simp [Work.Sends]) closed
  | @givenUp front rest error due =>
    exact h.shift front.event (by simp [Account.line, Work.ahead, Stage.events, due]) (by simp [due]) rfl
      (by simp [Work.Sends]) closed
  | left => exact h.same rfl rfl rfl (by simp) closed
  | forgotten retired spent =>
    refine h.same ?_ ?_ (closed retired).symm (by simp) (by simp)
    · simp [Account.line, Work.ahead, Stage.events, spent]
    · rw [spent]

/-- The event that was refused last and the error that it was refused with, as long as the failure is still to
be counted. -/
def Stage.refused? (outbox : Outbox) : Stage → Option (Event × SinkError)
  | .failed event error => some (event, error)
  | .refused error => outbox.head?.map fun front => (front.event, error)
  | _ => none

def Account.Heard (a : Account) (x : Option Work) : Prop :=
  ∀ work ∈ x, ∀ refusal ∈ work.stage.refused? a.outbox, .answered refusal.1 (.error refusal.2) ∈ a.past

theorem Turn.heard (turn : Turn regime rule m a x a' x') : a'.Heard x' := by
  rintro work here ⟨event, error⟩ refused
  cases turn with
  | refused =>
    obtain rfl := Option.some.inj here
    obtain ⟨rfl, rfl⟩ := Prod.mk.inj (Option.some.inj refused)
    exact List.mem_cons_self
  | @refusedAgain front rest flight due =>
    obtain rfl := Option.some.inj here
    rw [Stage.refused?, due] at refused
    obtain ⟨rfl, rfl⟩ := Prod.mk.inj (Option.some.inj refused)
    exact List.mem_cons_self
  | left => exact absurd here nofun
  | forgotten => exact absurd here nofun
  | _ =>
    obtain rfl := Option.some.inj here
    exact absurd refused nofun

/-! ### The log of dead letters -/

variable {w w' : World} {id : SlotId} {work : Work} {holders : RuleId → Option Work}

theorem World.deadLetters_abandon (w : World) (event : Event) (attempts : Nat) (error : SinkError) :
    (w.abandon event attempts error).engine.deadLetters =
      w.engine.deadLetters.push { event, attempts, error, failedAt := w.readCalendar.2 } := by
  simp only [World.abandon, World.readCalendar, World.count, World.note, World.onEngine]

theorem World.deadLetters_change (w : World) (id : SlotId) (c : FiringState.Change) :
    (w.change id c).1.engine.deadLetters = w.engine.deadLetters := by
  simp only [World.change]
  split <;> rfl

/-- A dead letter is an event that was refused, unless the outbox is full. -/
theorem Edit.buries (edit : Edit regime rule id w work w' x) :
    w'.engine.deadLetters = w.engine.deadLetters ∨ Outbox.capacity ≤ (w.slot id).outbox.length ∨
      ∃ letter, w'.engine.deadLetters = w.engine.deadLetters.push letter ∧
        work.stage.refused? (w.slot id).outbox = some (letter.event, letter.error) := by
  cases edit with
  | change c => exact .inl (w.deadLetters_change id c)
  | @transition todo r breached value time =>
    obtain ⟨ids, same⟩ := World.transition_fst w id r breached value time
    rw [same]
    exact .inl (w.deadLetters_change id _)
  | @queueBehind event todo =>
    cases cancels : (w.slot id).outbox.cancelledBy? event with
    | some d =>
      rw [World.queueBehind_of_cancelled cancels]
      exact .inl rfl
    | none =>
      rcases Nat.lt_or_ge (w.slot id).outbox.length Outbox.capacity with room | full
      · rw [World.queueBehind_of_room cancels room]
        exact .inl rfl
      · exact .inr (.inl full)
  | @firstFailure event error todo =>
    rw [World.firstFailure]
    split
    · exact .inl rfl
    · exact .inr (.inr ⟨_, World.deadLetters_abandon .., rfl⟩)
  | delivered =>
    rw [World.delivered]
    split <;> exact .inl rfl
  | @failedAgain front rest error due =>
    simp only [World.failedAgain]
    split
    · exact .inl rfl
    · refine .inr (.inr ⟨_, World.deadLetters_abandon .., ?_⟩)
      rw [Stage.refused?, due]
      rfl
  | _ => exact .inl rfl

theorem DeadLetters.mem_push {log : DeadLetters} {letter other : DeadLetter}
    (mem : other ∈ (log.push letter).entries) : other ∈ log.entries ∨ other = letter := by
  rw [push, List.mem_append, List.mem_singleton] at mem
  exact mem.imp_left (List.mem_of_mem_drop ·)

/-- Every dead letter has an error with which the sink refused it. -/
def World.Explained (w : World) : Prop :=
  ∀ letter ∈ w.engine.deadLetters.entries, .answered letter.event (.error letter.error) ∈ w.journal

theorem World.Explained.later (h : w.Explained) (letters : w'.engine.deadLetters = w.engine.deadLetters)
    (journal : ∃ news, w'.journal = news ++ w.journal) : w'.Explained := by
  obtain ⟨news, grows⟩ := journal
  intro letter mem
  rw [grows]
  exact List.mem_append_right _ (h letter (letters ▸ mem))

/-! ### Every interleaving -/

structure World.Modest (w : World) (holders : RuleId → Option Work) : Prop where
  accounts : ∀ rule, (w.account rule).Flaps (holders rule) ∧ (w.account rule).Heard (holders rule)
  explained : w.Explained

theorem kept_modest : Kept .serving World.Modest where
  still := fun {w w' holders} still ⟨accounts, explained⟩ => by
    refine ⟨fun rule => ?_, explained.later still.aside.deadLetters ⟨[], still.aside.journal⟩⟩
    rw [still.account]
    exact accounts rule
  happens := fun {w w' holders rule id x} attended happens ⟨accounts, explained⟩ => by
    have advances := attended.advances happens
    refine ⟨(kept_accounts (P := fun _ a x => a.Flaps x ∧ a.Heard x) fun turn _ _ h =>
      ⟨turn.flaps h.1, turn.heard⟩).happens attended happens accounts, ?_⟩
    obtain ⟨flaps, heard⟩ := accounts rule
    have few := flaps.length_le
    rw [World.account_of_find attended.found] at few heard
    generalize holders rule = held at happens heard
    cases happens with
    | @edit work _ _ edit =>
      rcases edit.buries with same | full | ⟨letter, pushed, refused⟩
      · exact explained.later same advances.journal
      · exact absurd (Nat.le_trans full few) (by decide)
      · obtain ⟨news, grows⟩ := advances.journal
        intro other mem
        rw [pushed] at mem
        rw [grows]
        refine List.mem_append_right _ ?_
        rcases DeadLetters.mem_push mem with old | rfl
        · exact explained other old
        · exact List.mem_of_mem_filter (heard work rfl _ refused)
    | _ => exact explained.later rfl advances.journal

theorem bears_modest : Bears World.Elsewhere World.Modest where
  elsewhere change := change
  kept := fun {w w' holders} change ⟨accounts, explained⟩ => by
    obtain ⟨engine, -, journal, -⟩ := change.engine
    refine ⟨fun rule => ?_, explained.later (congrArg Engine.deadLetters engine) ⟨[], journal⟩⟩
    rw [change.account]
    exact accounts rule

theorem World.modest_of_empty (outbox : ∀ rule, (w.account rule).outbox = [])
    (closed : ∀ rule, (w.account rule).retired = true → w.openAlert rule = none)
    (letters : w.engine.deadLetters.entries = []) : w.Modest fun _ => none := by
  refine ⟨fun rule => ⟨⟨⟨w.openAlert rule, ?_⟩, ?_, ?_, by simp, closed rule⟩, by simp [Account.Heard]⟩, ?_⟩
  · rw [Account.line, outbox]
    exact .nothing
  · simp [outbox]
  · simp [outbox]
  · intro letter mem
    rw [letters] at mem
    exact absurd mem List.not_mem_nil

theorem World.Begins.modest (h : w.Begins) : w.Modest fun _ => none := by
  refine World.modest_of_empty (fun rule => ?_) (fun rule _ => h.openAlert rule) ?_
  · rw [h.account]
  · obtain ⟨c, engine⟩ := h.engine
    rw [engine]
    rfl

/-! ### After a recovery -/

/-- The world after a first recovery that was made alone on a new engine, came to its end and found no stray
alert. -/
def World.Resumed (w : World) : Prop :=
  ∃ p : Passage, p.before.Begins ∧ p.call = .recover ∧ p.Runs World.Elsewhere ∧ p.after = w ∧
    ∃ report, p.reply = .recovered report ∧ report.orphaned = 0 ∧ report.superseded = 0

theorem World.Resumed.untold (h : w.Resumed) : w.Untold := by
  obtain ⟨p, begins, recovers, runs, rfl, report, replied, orphaned, superseded⟩ := h
  obtain ⟨c, new⟩ := begins.engine
  have fresh : p.before.Untold := by
    constructor <;> intro rule <;> rw [begins.account]
  have ends : p.call.program.Ensures (Pact.alone World.Elsewhere) (Team.polled World.Elsewhere) p.before
      fun reply w' => ∀ report, reply = .recovered report → report.strays = 0 → w'.Untold := by
    rw [recovers]
    refine (ensures_recover (World.inLine_new new) id fun rule => ?_).bind fun answer w' ⟨_, untold⟩ => ?_
    · rw [new]
      rfl
    · cases answer with
      | error e => exact ensures_pure nofun
      | ok report =>
        refine ensures_pure fun report' same none => ?_
        obtain rfl := Reply.recovered.inj same
        exact untold report rfl none fresh
  refine runs.ends ends report replied ?_
  rw [RecoveryReport.strays, orphaned, superseded]

theorem World.Untold.letters (untold : w.Untold) (booked : w.Booked 0) : w.engine.deadLetters.entries = [] := by
  have silent : w.journal = [] := by
    refine List.eq_nil_iff_forall_not_mem.mpr fun happening mem => ?_
    have own : happening ∈ (w.account happening.ruleId).past := List.mem_filter.mpr ⟨mem, decide_eq_true rfl⟩
    rw [untold.past] at own
    exact absurd own List.not_mem_nil
  have letters := booked.letters
  rw [World.abandonments, silent] at letters
  exact List.map_eq_nil_iff.mp letters

theorem World.Resumed.sound (h : w.Resumed) :
    Scene.Sound .serving World.Modest { world := w } (fun _ => .free) fun _ => none := by
  have untold := h.untold
  obtain ⟨p, begins, recovers, runs, rfl, -⟩ := h
  have admitted : p.call.Admitted .recovering := by
    rw [recovers]
    exact nofun
  have run : Scene.Run (Call.Admitted .recovering) World.Elsewhere { world := p.before }
      { world := p.after, calls := [.finished p.reply] } := runs.run admitted []
  obtain ⟨rebuilds, sound⟩ := World.Recovered.sound ⟨p.before, p.reply, begins, run⟩
  obtain ⟨st, holders, accounted⟩ := (Scene.sound_begins begins begins.accounted).run
    (kept_accounted .recovering) bears_accounted run fun _ => Nat.le_refl 1
  have property := accounted.property
  rw [accounted.nobody (Scene.allFinished_of_results rfl)] at property
  have booked : p.after.Booked 0 := property.booked "" fun _ _ => rfl
  exact sound.imp (World.modest_of_empty untold.outbox rebuilds.closed (untold.letters booked))

/-- However calls, answers and changes from outside are interleaved, at most three events of a rule wait, and every
dead letter has an error with which the sink refused it. -/
theorem Scene.few_wait_while_flapping {w : World} {s : Scene} (starts : w.Begins ∨ w.Resumed)
    (run : Scene.Run (Call.Admitted .serving) World.Elsewhere { world := w } s) :
    (∀ rule, (s.world.account rule).outbox.length ≤ 3) ∧ s.world.Explained := by
  have sound : Scene.Sound .serving World.Modest { world := w } (fun _ => .free) fun _ => none := by
    rcases starts with begins | resumed
    · exact Scene.sound_begins begins begins.modest
    · exact resumed.sound
  obtain ⟨st, holders, sound'⟩ := sound.run kept_modest bears_modest run (by simp)
  exact ⟨fun rule => (sound'.property.accounts rule).1.length_le, sound'.property.explained⟩

/-- The load goes up and down. -/
def Scene.flapping (s : Scene) (values : List Float) : Scene :=
  values.foldl (fun s value => s.make (.sample "load" value default)) s

theorem Scene.run_flapping (s : Scene) (values : List Float) :
    Scene.Run (Call.Admitted .serving) World.Elsewhere s (s.flapping values) := by
  induction values generalizing s with
  | nil => exact .refl
  | cons value rest ih => exact (Scene.run_make s nofun).trans (ih _)

/-- A sink that is away. -/
def Sink.away : Sink :=
  let away : Script := { default := { deed := .fail (.unavailable "away") } }
  { create := away, resolve := away }

/-- While the load goes up and down, three events come to wait on a new engine. After a recovery that finds an open
alert it is two, the first of which closes that alert. -/
theorem Scene.three_wait_while_flapping :
    let w : World := .watched { workers := 1 } .away
    let s := Scene.flapping (Scene.make { world := w } .refresh) [95, 50, 95, 50, 95]
    let stored : World := .watched { workers := 1 } { Sink.away with
      store := .insert {} (.ofRule "x" .highLoad 95 default) }
    let w' := (Passage.made .recover stored).after
    let s' := Scene.flapping { world := w' } [50, 95, 50, 95]
    (s.world.account "high-load").outbox.length = 3 ∧
      (∀ rule, (s.world.account rule).outbox.length ≤ 3) ∧
      (s'.world.account "high-load").outbox.length = 2 ∧
      (∀ rule, (s'.world.account rule).outbox.length ≤ 3) := by
  intro w s stored w' s'
  have run : Scene.Run (Call.Admitted .serving) World.Elsewhere { world := w } s :=
    (Scene.run_make _ nofun).trans (Scene.run_flapping _ _)
  have resumed : w'.Resumed := by
    have ran : (w', (Passage.made .recover stored).reply) = (w', .recovered { seeded := 1 }) :=
      Reply.recovered_of_report (by decide +kernel)
    exact ⟨Passage.made .recover stored, World.begins_watched _ _, rfl, Passage.runs_made (by decide +kernel), rfl,
      { seeded := 1 }, (Prod.mk.inj ran).2, rfl, rfl⟩
  refine ⟨by decide +kernel, (Scene.few_wait_while_flapping (.inl (World.begins_watched _ _)) run).1,
    by decide +kernel, (Scene.few_wait_while_flapping (.inr resumed) (Scene.run_flapping _ _)).1⟩

end ThresholdAlerts
