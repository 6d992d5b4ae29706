import ThresholdAlerts.Proofs.Lifecycle
import ThresholdAlerts.Proofs.Reencoding
/-! The events that the engine emits, as texts. An alert is only opened for a value that breaches a valid rule, so that
what it says of the rule can be written. Main statement: however calls are interleaved, every event that is produced
or handed over is decoded from its own text again, unless it tells of an infinite value; then the text is rejected. -/
namespace ThresholdAlerts

open Function

/-! ### What alerts tell of -/

/-- A rule that gives a verdict is valid, and a valid rule can be written. -/
theorem Rule.writable_of_breaches {r : Rule} {value : Float} {breached : Bool} (judged : r.breaches value = .ok breached) :
    r.Writable := by
  unfold breaches at judged
  cases valid : r.validate with
  | error e =>
    rw [valid] at judged
    contradiction
  | ok _ =>
    unfold validate at valid
    split at valid
    · contradiction
    · split at valid
      · contradiction
      · split at valid
        · contradiction
        · next supported =>
          refine ⟨Operator.settled_of_supported supported, fun x mem => ?_⟩
          rw [show r.threshold = some x from mem] at valid
          split at valid
          · contradiction
          · dsimp only at valid
            split at valid
            · assumption
            · contradiction

namespace Event

/-- An alert was opened by a rule, for a value that breaches it. -/
def Warranted : Event → Prop
  | .opened alert => ∃ id r value time, alert = .ofRule id r value time ∧ r.breaches value = .ok true
  | .resolved .. => True

/-- The times in an event. -/
def times : Event → List Timestamp
  | .opened alert => alert.openedAt :: alert.resolvedAt.toList
  | .resolved _ _ resolvedAt _ => [resolvedAt]

/-- An event that is warranted is decoded from its own text if its doubles are finite. -/
theorem decodeWhole_write {e : Event} (warranted : e.Warranted) (dated : ∀ t ∈ e.times, t.Proper)
    (exact : ∀ x ∈ e.doubles, (Json.float x).ReadsBack) :
    Json.decodeWhole ofJson e.toJson.write =
      if e.doubles.all Float.isFinite then .ok e else .error .invalidType := by
  rw [(legible_toJson exact).readsBack.decodeWhole]
  cases e with
  | resolved alertId ruleId time reason => exact ofJson_toJson (dated time List.mem_cons_self)
  | opened alert =>
    obtain ⟨id, r, value, time, rfl, judged⟩ := warranted
    obtain ⟨operator, threshold⟩ := Rule.writable_of_breaches judged
    have opened := dated time List.mem_cons_self
    have others : r.threshold.toList.all Float.isFinite = true := by
      rw [List.all_eq_true]
      exact fun x mem => threshold x (Option.mem_toList.1 mem)
    cases finite : value.isFinite with
    | true =>
      have all : (Event.opened (.ofRule id r value time)).doubles.all Float.isFinite = true := by
        simp only [doubles, Alert.doubles, Alert.ofRule, List.all_cons, finite, others, Bool.and_self]
      rw [if_pos all]
      exact ofJson_toJson (e := .opened _) ⟨operator, threshold, finite, opened, nofun⟩
    | false =>
      have some : ¬ (Event.opened (.ofRule id r value time)).doubles.all Float.isFinite = true := by
        simp [doubles, Alert.doubles, Alert.ofRule, finite]
      rw [if_neg some, ofJson_opened]
      exact ofContent_opened_of_infinite finite

end Event

/-! ### What the firing states produce -/

/-- An alert opens with a sample that breaches. -/
theorem FiringState.warranted_transition {s : FiringState} {fresh : AlertId} {r : Rule} {breached : Bool} {value : Float}
    {time : Timestamp} (judged : r.breaches value = .ok breached) :
    ∀ e ∈ (s.transition fresh r breached value time).2, e.Warranted := by
  have counted {n : Nat} (breaches : r.breaches value = .ok true) :
      ∀ e ∈ (countBreach n fresh r value time).2, e.Warranted := by
    intro e mem
    unfold countBreach at mem
    dsimp only at mem
    split at mem
    · exact Option.some.inj mem ▸ ⟨fresh, r, value, time, rfl, breaches⟩
    · contradiction
  intro e mem
  unfold transition nextPhase at mem
  dsimp only at mem
  split at mem
  · contradiction
  · exact counted judged e mem
  · exact counted judged e mem
  · contradiction
  · contradiction
  · exact Option.some.inj mem ▸ trivial

theorem FiringState.warranted_apply {s : FiringState} {c : Change} {rule : RuleId} (suits : c.Suits rule true) :
    ∀ e ∈ (s.apply c).2, e.Warranted := by
  have outcome := s.apply_outcome c
  intro e mem
  generalize (s.apply c).1 = state at outcome
  generalize (s.apply c).2 = event at outcome mem
  cases outcome with
  | still same => contradiction
  | closes was clear => exact Option.some.inj mem ▸ trivial
  | opens made was now =>
    rw [made] at suits
    exact absurd suits.2 (by simp)

/-! ### Every interleaving -/

def Happening.announced? : Happening → Option Event
  | .produced event => some event
  | .handed event => some event
  | _ => none

/-- The events that were produced or handed over. -/
def World.announced (w : World) : List Event :=
  w.journal.filterMap Happening.announced?

namespace World

variable {w w' : World}

def Warrants (w w' : World) : Prop :=
  ∀ e ∈ w'.announced, e ∈ w.announced ∨ e.Warranted

theorem announced_of_journal (same : w'.journal = w.journal) : w'.announced = w.announced :=
  congrArg (List.filterMap Happening.announced?) same

theorem announced_onTracker (w : World) (f : Tracker → Tracker) : (w.onTracker f).announced = w.announced := rfl

theorem announced_note {h : Happening} (silent : h.announced? = none) : (w.note h).announced = w.announced :=
  List.filterMap_cons_none silent

theorem Warrants.of_same (same : w'.announced = w.announced) : w.Warrants w' :=
  fun _ mem => .inl (same ▸ mem)

theorem Warrants.of_journal (same : w'.journal = w.journal) : w.Warrants w' :=
  .of_same (announced_of_journal same)

theorem announced_abandon (w : World) (event : Event) (attempts : Nat) (error : SinkError) :
    (w.abandon event attempts error).announced = w.announced := by
  rw [World.announced, (w.alters_abandon 0 event attempts error).journal]
  rfl

theorem announced_change (w : World) (id : SlotId) (c : FiringState.Change) :
    (w.change id c).1.announced = ((w.slot id).state.apply c).2.toList ++ w.announced := by
  rw [World.announced, (World.alters_change c).journal, List.filterMap_append]
  cases ((w.slot id).state.apply c).2 <;> rfl

theorem announced_queueBehind (w : World) (id : SlotId) (event : Event) :
    (w.queueBehind id event).announced = w.announced := by
  simp only [World.queueBehind]
  generalize (w.slot id).outbox.enqueue event w.clock = put
  obtain ⟨outbox, result⟩ := put
  cases result with
  | queued => rfl
  | collapsed opening => exact (announced_onTracker _ _).trans (announced_note rfl)
  | overflow event => exact (announced_onTracker _ _).trans (announced_abandon ..)

theorem announced_firstFailure (w : World) (id : SlotId) (event : Event) (error : SinkError) :
    (w.firstFailure id event error).announced = w.announced := by
  rw [World.firstFailure]
  split
  · exact announced_of_journal rfl
  · exact (w.count .sinkFailure).announced_abandon ..

theorem announced_delivered (w : World) (id : SlotId) (front : Delivery) (rest : Outbox) :
    (w.delivered id front rest).announced = w.announced := by
  rw [World.delivered]
  split <;> rfl

theorem announced_failedAgain (w : World) (id : SlotId) (front : Delivery) (rest : Outbox) (error : SinkError) :
    (w.failedAgain id front rest error).1.announced = w.announced := by
  simp only [World.failedAgain]
  split
  · rfl
  · exact announced_abandon ..

end World

section Edits

variable {regime : Regime} {rule : RuleId} {id : SlotId} {w w' : World} {work : Work} {x x' : Option Work}

/-- Whoever holds a slot announces only what is warranted, if what it has still to hand over is so. -/
theorem Edit.warrants (edit : Edit regime rule id w work w' x) (todo : ∀ e ∈ work.todo, e.Warranted) :
    w.Warrants w' ∧ ∀ work' ∈ x, ∀ e ∈ work'.todo, e.Warranted := by
  have same {work' : Work} (silent : w'.announced = w.announced) (fewer : ∀ e ∈ work'.todo, e ∈ work.todo) :
      w.Warrants w' ∧ ∀ work ∈ some work', ∀ e ∈ work.todo, e.Warranted :=
    ⟨.of_same silent, fun _ here e mem => todo e (fewer e (Option.some.inj here ▸ mem))⟩
  cases edit with
  | change c serves suits =>
    have made := (w.slot id).state.warranted_apply suits
    rw [World.change_snd]
    refine ⟨fun e mem => ?_, fun work' here e mem => ?_⟩
    · rw [World.announced_change, List.mem_append, Option.mem_toList] at mem
      exact mem.symm.imp_right (made e)
    · obtain rfl := Option.some.inj here
      rw [List.mem_append, Option.mem_toList] at mem
      exact mem.elim (todo e) (made e)
  | @transition todo' r breached value time serves known kept judged =>
    have made : ∀ e ∈ ((w.slot id).state.transition w.ids.next r breached value time).2, e.Warranted :=
      FiringState.warranted_transition judged
    obtain ⟨ids, world⟩ := World.transition_fst w id r breached value time
    rw [World.transition_snd, world]
    refine ⟨fun e mem => ?_, fun work' here e mem => ?_⟩
    · have mem : e ∈ (w.change id (.transition w.ids.next r breached value time)).1.announced := mem
      rw [World.announced_change, List.mem_append, Option.mem_toList] at mem
      exact mem.symm.imp_right (made e)
    · obtain rfl := Option.some.inj here
      rw [List.mem_append, Option.mem_toList] at mem
      exact mem.elim (todo e) (made e)
  | @hand event todo' =>
    obtain ⟨first, rest⟩ := List.forall_mem_cons.1 todo
    refine ⟨fun e mem => ?_, fun work' here => Option.some.inj here ▸ rest⟩
    exact (List.mem_cons.1 mem).elim (fun new => .inr (new ▸ first)) .inl
  | @handStray event recovers named ends =>
    refine ⟨fun e mem => ?_, fun work' here e mem => absurd (Option.some.inj here ▸ mem) List.not_mem_nil⟩
    have resolved : event.Warranted := by
      cases event with
      | opened alert => contradiction
      | resolved alertId ruleId time reason => exact trivial
    exact (List.mem_cons.1 mem).elim (fun new => .inr (new ▸ resolved)) .inl
  | queueBehind waits => exact same (w.announced_queueBehind ..) fun _ mem => mem
  | firstFailure empty => exact same (w.announced_firstFailure ..) fun _ mem => mem
  | delivered due => exact same (w.announced_delivered ..) fun _ mem => mem
  | failedAgain due => exact same (w.announced_failedAgain ..) fun _ mem => mem
  | leave => exact ⟨.of_journal rfl, fun _ here => absurd here (Option.not_mem_none _)⟩
  | release => exact ⟨.of_journal rfl, fun _ here => absurd here (Option.not_mem_none _)⟩
  | _ => exact same (World.announced_of_journal rfl) fun _ mem => mem

theorem Happens.warrants (happens : Happens regime rule id w x w' x') (todo : ∀ work ∈ x, ∀ e ∈ work.todo, e.Warranted) :
    w.Warrants w' ∧ ∀ work ∈ x', ∀ e ∈ work.todo, e.Warranted := by
  have same {work work' : Work} (here : work ∈ x) (fewer : ∀ e ∈ work'.todo, e ∈ work.todo) :
      ∀ work ∈ some work', ∀ e ∈ work.todo, e.Warranted :=
    fun _ there e mem => todo work here e (fewer e (Option.some.inj there ▸ mem))
  cases happens with
  | taken here => exact ⟨.of_journal rfl, fun work there e mem => absurd (Option.some.inj there ▸ mem) List.not_mem_nil⟩
  | edit edit => exact edit.warrants (todo _ rfl)
  | sent => exact ⟨.of_same (World.announced_note rfl), same rfl fun _ mem => mem⟩
  | resent => exact ⟨.of_same (World.announced_note rfl), same rfl fun _ mem => mem⟩
  | acted => exact ⟨.of_journal rfl, same rfl fun _ mem => mem⟩
  | actedAgain => exact ⟨.of_journal rfl, same rfl fun _ mem => mem⟩
  | _ => exact ⟨.of_same (World.announced_note rfl), same rfl fun _ mem => mem⟩

end Edits

structure World.Warranted (w : World) (holders : RuleId → Option Work) : Prop where
  announced : ∀ e ∈ w.announced, e.Warranted
  todo : ∀ rule, ∀ work ∈ holders rule, ∀ e ∈ work.todo, e.Warranted

theorem kept_warranted {regime : Regime} : Kept regime World.Warranted where
  still := fun {w w' holders} still warranted => by
    refine ⟨?_, warranted.todo⟩
    rw [World.announced, still.aside.journal]
    exact warranted.announced
  happens := fun {w w' holders rule id x} _ happens warranted => by
    obtain ⟨news, todo⟩ := happens.warrants (warranted.todo rule)
    refine ⟨fun e mem => (news e mem).elim (warranted.announced e) fun new => new, fun rule' => ?_⟩
    by_cases same : rule' = rule
    · subst same
      rw [update_self]
      exact todo
    · rw [update_of_ne same]
      exact warranted.todo rule'

theorem bears_warranted : Bears World.Elsewhere World.Warranted where
  elsewhere change := change
  kept change warranted := by
    refine ⟨?_, warranted.todo⟩
    rw [World.announced, change.engine.2.2.1]
    exact warranted.announced

/-- Whatever calls were made and however they are interleaved: an event that was produced or handed over is decoded from
its own text again if its doubles are finite, and otherwise there is no number where one has to be. -/
theorem Scene.announced_decodes {w : World} {s : Scene} (begins : w.Begins)
    (run : Scene.Run (Call.Admitted .mixed) World.Elsewhere { world := w } s) {e : Event}
    (announced : e ∈ s.world.announced) (dated : ∀ t ∈ e.times, t.Proper)
    (exact : ∀ x ∈ e.doubles, (Json.float x).ReadsBack) :
    Json.decodeWhole Event.ofJson e.toJson.write =
      if e.doubles.all Float.isFinite then .ok e else .error .invalidType := by
  have new : World.Warranted w fun _ => none := by
    refine ⟨?_, fun _ _ here => absurd here (Option.not_mem_none _)⟩
    rw [World.announced, begins.journal]
    exact fun _ mem => absurd mem List.not_mem_nil
  obtain ⟨st, holders, sound⟩ := (Scene.sound_begins begins new).run kept_warranted bears_warranted run nofun
  exact Event.decodeWhole_write (sound.property.announced e announced) dated exact

/-- The load rises above the threshold. -/
theorem Scene.announced_decodes_high_load :
    let e : Event := .opened (.ofRule "" .highLoad 95 default)
    Json.decodeWhole Event.ofJson e.toJson.write = .ok e := by
  intro e
  let s := (Scene.make { world := .watched { workers := 1 } {} } .refresh).make (.sample "load" 95 default)
  have run : Scene.Run (Call.Admitted .mixed) World.Elsewhere { world := .watched { workers := 1 } {} } s :=
    (Scene.run_make _ nofun).trans (Scene.run_make _ nofun)
  have announced : e ∈ s.world.announced := by decide +kernel
  have exact : ∀ x ∈ e.doubles, (Json.float x).ReadsBack := by
    intro x mem
    rcases List.mem_pair.1 mem with rfl | rfl <;> (unfold Json.ReadsBack; rfl)
  exact Scene.announced_decodes (World.begins_watched _ _) run announced (by decide +kernel) exact

/-- The load is read as infinite. That breaches, and the event says so without a number. -/
theorem Scene.infinite_load_not_decoded :
    let e : Event := .opened (.ofRule "" .highLoad (1 / 0) default)
    e ∈ ((Scene.make { world := .watched { workers := 1 } {} } .refresh).make
        (.sample "load" (1 / 0) default)).world.announced ∧
      Json.decodeWhole Event.ofJson e.toJson.write = .error .invalidType := by
  intro e
  have infinite : (1 / 0 : Float).isFinite = false := by decide +kernel
  have null : Json.float (1 / 0) = .null := if_neg (by decide +kernel)
  have exact : ∀ x ∈ e.doubles, (Json.float x).ReadsBack := by
    intro x mem
    rcases List.mem_pair.1 mem with rfl | rfl
    · change (Json.float (1 / 0)).ReadsBack
      rw [null]
      unfold Json.ReadsBack
      rfl
    · unfold Json.ReadsBack
      rfl
  refine ⟨by decide +kernel, ?_⟩
  rw [(Event.legible_toJson exact).readsBack.decodeWhole, Event.ofJson_opened]
  exact Event.ofContent_opened_of_infinite infinite

end ThresholdAlerts
