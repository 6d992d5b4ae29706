import ThresholdAlerts.Proofs.Insulation
/-! Announced edits of rules. The rules are fetched, and the edited rule is brought in line twice: with all others
if the fetch succeeds, and once more on its own, to restart its streak. Main statement: whatever was called before,
the streak is dropped, an open alert of the rule is closed once or not at all, and a fetch that fails changes
nothing else. -/
namespace ThresholdAlerts

open Prog

namespace FiringState

theorem endReason_eq_none {s : FiringState} {definition : Option Rule} :
    s.endReason definition = none ↔ ∃ r, definition = some r ∧ ∀ known ∈ s.fingerprint, known = r.fingerprint := by
  cases definition with
  | none => simp [endReason]
  | some r =>
    cases remembered : s.fingerprint with
    | none => simp [endReason, remembered]
    | some known => simp [endReason, remembered]

theorem endReason_eq {s : FiringState} {definition : Option Rule} {reason : ResolveReason}
    (ends : s.endReason definition = some reason) :
    reason = if definition.isSome then .ruleChanged else .ruleRemoved := by
  cases definition with
  | none => exact (Option.some.inj ends).symm
  | some r =>
    cases remembered : s.fingerprint with
    | none => simp [endReason, remembered] at ends
    | some known =>
      by_cases same : known = r.fingerprint
      · simp [endReason, remembered, same] at ends
      · simpa [endReason, remembered, same] using ends.symm

/-- An alert that is open stays open unless there is a reason to close it. -/
theorem openAlertId_settle (s : FiringState) (definition : Option Rule) (announced : Bool) (time : Timestamp) :
    (s.settle definition announced time).1.openAlertId =
      if (s.endReason definition).isNone then s.openAlertId else none := by
  have dropped (s : FiringState) : s.dropPending.openAlertId = s.openAlertId := by
    rw [dropPending]
    split
    · next pending => simp [openAlertId, pending]
    · rfl
  cases definition with
  | none => rfl
  | some r =>
    have synced : (s.syncRule r time).1.openAlertId =
        if (s.endReason (some r)).isNone then s.openAlertId else none := by
      rw [syncRule]
      cases remembered : s.fingerprint with
      | none => simp [endReason, remembered, openAlertId]
      | some known =>
        by_cases same : known = r.fingerprint
        · simp [endReason, remembered, same]
        · simp [endReason, remembered, same, forceResolve, openAlertId]
    cases announced with
    | true => exact (dropped _).trans synced
    | false => exact synced

theorem settle_announced (s : FiringState) (definition : Option Rule) (time : Timestamp) :
    (s.settle definition true time).1.status ≠ .pending := by
  cases definition with
  | none => exact FiringStatus.noConfusion
  | some r =>
    change (s.syncRule r time).1.dropPending.status ≠ .pending
    rw [dropPending]
    split
    · exact FiringStatus.noConfusion
    · next other =>
      rw [status]
      split
      · exact FiringStatus.noConfusion
      · next pending => exact absurd pending (other _)
      · exact FiringStatus.noConfusion

theorem settle_silent {s : FiringState} {definition : Option Rule} (announced : Bool) (time : Timestamp)
    (still : s.openAlertId = none ∨ s.endReason definition = none) :
    (s.settle definition announced time).2 = none := by
  have event : (s.settle definition announced time).2 = (s.settle definition false time).2 := by
    cases definition <;> cases announced <;> rfl
  rw [event, settle_snd]
  rcases still with shut | fits
  · rw [shut]
    rfl
  · rw [fits]
    cases s.openAlertId <;> rfl

end FiringState

section Looking

variable {T : Type} {team : Team T} {outside : World → World → Prop} {w : World} {rule : RuleId} {id : SlotId}

/-! ### Looking at the slots -/

theorem Request.handled_knownSlot {held : Holding} {past : List Happening} (v : w.Vacant rule (some held) past)
    (found : w.engine.tracker.find? rule = some id) :
    (Request.knownSlot id).Handled (Pact.desk rule) w fun answer w' => answer = true ∧
      ∃ ticket, w'.Seated rule id ticket (held.account past) := by
  obtain ⟨takes, begun⟩ := v.ticketed
  have there : w.takeTicket.1.engine.tracker.find? rule = some id := found
  obtain ⟨c, claimed, -, -, self, seated⟩ := begun.claim w.takeTicket.2 .existing fun _ => rfl
  have joined : Request.claim w.takeTicket.1 w.takeTicket.2 rule .existing =
      (w.takeTicket.1.onTracker (·.join id w.takeTicket.2),
        some { ticket := w.takeTicket.2, rule, mode := .existing, slot := id }) := by
    simp only [claim, Tracker.request, there]
    rfl
  rw [joined] at claimed self seated
  obtain rfl := Option.some.inj claimed
  have started : (Request.knownSlot id).start w.takeTicket.2 w.takeTicket.1 =
      (w.takeTicket.1.onTracker (·.join id w.takeTicket.2), w.takeTicket.2) :=
    if_pos (Std.TreeMap.mem_iff_isSome_getElem?.mpr (by rw [begun.coherent.get there]; rfl))
  have polls {w' : World} (here : w'.Seated rule id w.takeTicket.2 (held.account past)) :
      (Request.knownSlot id).poll w.takeTicket.2 w' = (w'.moved, .answered true) := by
    have kept : w'.engine.tracker.slots.contains id = true :=
      Std.TreeMap.mem_iff_isSome_getElem?.mpr (by rw [here.coherent.get here.found]; rfl)
    have holds : w'.engine.tracker.holds id w.takeTicket.2 = true :=
      decide_eq_true (congrArg List.head? here.queue)
    have attached : (w'.slot id).detached = false := here.coherent.attached here.found
    simp [poll, kept, holds, attached, answer]
  rw [Handled, started]
  refine ⟨(Pact.desk rule).goesOn takes self, fun w' ticket => ticket = w.takeTicket.2 ∧
    w'.Seated rule id w.takeTicket.2 (held.account past), ⟨rfl, seated⟩,
    fun here others => ⟨here.1, here.2.others others⟩, ?_, ?_⟩
  all_goals
    rintro w' w'' ticket out ⟨rfl, here⟩ polled
    rw [polls here] at polled
  · exact absurd (Prod.mk.inj polled).2 (by simp)
  · obtain ⟨rfl, answered⟩ := Prod.mk.inj polled
    cases answered
    have notes : w'.Notes [] w'.moved := ⟨rfl, rfl, rfl, rfl, rfl, rfl, rfl⟩
    obtain ⟨self', there'⟩ := here.noted notes (by simp)
    exact ⟨self', rfl, _, there'⟩

theorem ensures_look {held : Holding} {past : List Happening} {summary : TrackerSummary}
    (v : w.Vacant rule (some held) past) (found : w.engine.tracker.find? rule = some id) :
    (do
      if ← request (.knownSlot id) then
        let s ← step fun w => (w.leave id, w.slot id)
        return summary.add s
      else return summary : Prog T _).Ensures (Pact.desk rule) Team.nobody w fun _ w' =>
        w'.Vacant rule (some held) past ∧ w'.engine.tracker.find? rule = some id := by
  refine ensures_request ((Request.handled_knownSlot v found).imp fun answer w₁ ⟨yes, ticket, seated⟩ => ?_)
  rw [yes, if_pos rfl]
  obtain ⟨self, vacant⟩ := seated.leave
  exact ensures_step self ⟨vacant, (Tracker.find?_leave ..).trans seated.found⟩

theorem ensures_summarize [team.Monotone] {ids : List SlotId} {summary : TrackerSummary} (line : w.InLine)
    (calm : ∀ {w w'}, outside w w' → w.Elsewhere w')
    (known : ∀ id ∈ ids, ∃ rule, w.engine.tracker.find? rule = some id) :
    (summarize ids summary : Prog T _).Ensures (Pact.alone outside) team w fun _ w' => w'.InLine := by
  induction ids generalizing w summary with
  | nil => exact line
  | cons id ids ih =>
    obtain ⟨⟨rule, found⟩, others⟩ := List.forall_mem_cons.mp known
    have parts : (summarize (id :: ids) summary : Prog T _) = (do
        if ← request (.knownSlot id) then
          let s ← step fun w => (w.leave id, w.slot id)
          return summary.add s
        else return summary) >>= summarize ids := by
      change Prog.ask _ _ = Prog.ask _ _
      refine congrArg _ (funext fun answer => ?_)
      cases answer <;> rfl
    have held := Tracker.held_of_find found
    rw [parts]
    refine ((ensures_look (held ▸ line.rest.vacant rule) found).alone calm).bind ?_
    rintro summary' w₁ ⟨⟨vacant, found'⟩, keeps, -⟩
    have line₁ : w₁.InLine := line.one keeps vacant (held ▸ line.rest.tagged rule) (held ▸ line.each rule)
    refine ih line₁ fun id' mem => ?_
    obtain ⟨rule', there⟩ := others id' mem
    by_cases same : rule' = rule
    · subst same
      exact ⟨rule', found'.trans (found.symm.trans there)⟩
    · exact ⟨rule', (keeps.found same).trans there⟩

theorem ensures_health [team.Monotone] (line : w.InLine) (calm : ∀ {w w'}, outside w w' → w.Elsewhere w') :
    (health : Prog T _).Ensures (Pact.alone outside) team w fun _ w' => w'.InLine := by
  refine ensures_read ((ensures_summarize line calm fun id mem => ?_).bind fun summary w' line' => ?_)
  · rw [Tracker.slotIds, values_eq_toList] at mem
    obtain ⟨entry, listed, rfl⟩ := List.mem_map.mp mem
    exact ⟨entry.1, Std.TreeMap.mem_toList_iff_getElem?_eq_some.mp listed⟩
  · exact ⟨trivial, line'.of_same rfl rfl rfl (line'.rest.of_same rfl rfl)⟩

end Looking

section Announcing

variable {outside : World → World → Prop} {w w₁ w₂ w' : World} {rule : RuleId}

/-! ### What an announced edit comes to -/

/-- What the firing states produce while new rules are taken up is handed over, rule by rule. -/
theorem World.TakesUp.tells {rules : List Rule} {events : List Event} (line : w.InLine)
    (fetched : w.Fetched (.ok rules) w₁)
    (takes : w₁.TakesUp w₁.engine.rules.snapshot.generation events w') (rule : RuleId) :
    (w.account rule).Tells (events.filter (·.ruleId = rule)) (w'.account rule) := by
  obtain ⟨each, aligned, parts⟩ := takes.parted line fetched
  have same : (w₁.claimed w₁.engine.rules.snapshot.generation).account rule = w.account rule := by
    rw [World.account, World.account, ← fetched.tracker, ← fetched.journal]
    rfl
  rw [parts]
  split
  · next mem => exact same ▸ aligned.told rule mem
  · next absent => exact .of_same (congrArg Account.past ((aligned.silent rule absent).trans same))

/-- Where all firing states are in line, an open alert is not closed. -/
theorem World.InLine.still (line : w.InLine) (rule : RuleId) :
    (w.firing rule).openAlertId = none ∨ (w.firing rule).endReason (w.rule? rule) = none := by
  cases defined : w.rule? rule with
  | some r => exact .inr (FiringState.endReason_eq_none.mpr ⟨r, rfl, line.fits defined⟩)
  | none =>
    refine .inl ?_
    rw [World.firing_eq]
    cases held : w.engine.tracker.held rule with
    | none => rfl
    | some h =>
      have there := line.each rule h held
      rw [Option.getD_some, FiringState.openAlertId, (there.spent (there.gone defined)).1]

/-- A rule that is in line already produces nothing when its edit is announced, and loses its streak. -/
theorem World.InLine.resets {events : List Event} (line : w.InLine)
    (aligned : w.Aligned true [rule] (fun _ => events) w') :
    events = [] ∧ (w'.firing rule).status ≠ .pending ∧ (w'.firing rule).openAlertId = (w.firing rule).openAlertId := by
  obtain ⟨time, made, agrees⟩ := aligned.settles line rfl (List.mem_singleton_self rule)
  have still := line.still rule
  refine ⟨?_, ?_, ?_⟩
  · rw [made, FiringState.settle_silent true time still]
    rfl
  · rw [agrees.status]
    exact FiringState.settle_announced _ _ _
  · rw [agrees.openAlertId, FiringState.openAlertId_settle]
    rcases still with shut | fits
    · rw [shut, ite_self]
    · rw [fits]
      rfl

/-- What an announced edit comes to whose fetch failed: the edited rule loses its streak, and all else is as it
was. -/
structure Passage.Fails (p : Passage) (rule : RuleId) (e : SourceError) : Prop where
  reply : p.reply = .failed (.ruleStore e)
  snapshot : p.after.engine.rules.snapshot = p.before.engine.rules.snapshot
  invalidated : p.after.engine.rules.invalidated = true
  silent : ∀ rule', (p.before.account rule').Tells [] (p.after.account rule')
  others : ∀ rule' ≠ rule, p.after.engine.tracker.held rule' = p.before.engine.tracker.held rule'

/-- What an announced edit comes to whose fetch succeeds: what was produced for each rule was handed over and is
returned, and it is the end of the rule's alert, if that is due. -/
structure Passage.Succeeds (p : Passage) (events : List Event) : Prop where
  reply : p.reply = .events events
  told : ∀ rule, (p.before.account rule).Tells (events.filter (·.ruleId = rule)) (p.after.account rule)
  closings : ∀ rule, ∃ time, events.filter (·.ruleId = rule) = (p.before.closing p.after rule time).toList

section Editing

variable {p : Passage} {events : List Event}

theorem World.Fetched.account {answer : Except SourceError (List Rule)} (fetched : w.Fetched answer w')
    (rule : RuleId) : w'.account rule = w.account rule := by
  rw [World.account, World.account, fetched.tracker, fetched.journal]

theorem World.Aligned.tells {announced : Bool} {rules : List RuleId} {each : RuleId → List Event}
    (aligned : w.Aligned announced rules each w') (none : ∀ rule ∈ rules, each rule = []) (rule : RuleId) :
    (w.account rule).Tells [] (w'.account rule) := by
  by_cases mem : rule ∈ rules
  · exact none rule mem ▸ aligned.told rule mem
  · exact .of_same (congrArg Account.past (aligned.silent rule mem))

theorem Passage.fails_of_fetched {e : SourceError} (line : p.before.InLine) (fetched : p.before.Fetched (.error e) w₁)
    (aligned : (w₁.onRules (·.invalidate)).Aligned true [rule] (fun _ => events) p.after)
    (reply : p.reply = .failed (.ruleStore e)) : p.Fails rule e := by
  obtain ⟨silent, -, -⟩ := (fetched.inLine line).invalidate.resets aligned
  refine ⟨reply, ?_, by rw [aligned.rules]; rfl, fun rule' => ?_, fun rule' other => ?_⟩
  · rw [aligned.rules]
    exact fetched.took
  · rw [← fetched.account]
    exact aligned.tells (fun _ _ => silent) rule'
  · rw [aligned.others rule' (by simpa using other), ← fetched.tracker]
    rfl

theorem Passage.succeeds_of_fetched {rules : List Rule} {early late : List Event} (line : p.before.InLine)
    (fetched : p.before.Fetched (.ok rules) w₁)
    (takes : w₁.TakesUp w₁.engine.rules.snapshot.generation early w₂)
    (aligned : w₂.Aligned true [rule] (fun _ => late) p.after) (reply : p.reply = .events (early ++ late)) :
    p.Succeeds early := by
  obtain ⟨rfl, -, -⟩ := (takes.inLine line _ fetched).resets aligned
  refine ⟨reply.trans (congrArg _ (List.append_nil _)), fun rule' => ?_, fun rule' => ?_⟩
  · have told := (takes.tells line fetched rule').trans (aligned.tells (fun _ _ => rfl) rule')
    rwa [List.append_nil] at told
  · have known : w₂.rule? rule' = p.after.rule? rule' := by rw [World.rule?, World.rule?, aligned.rules]
    obtain ⟨time, closing⟩ := takes.closings line fetched rule'
    refine ⟨time, closing.trans ?_⟩
    rw [World.closing, World.closing, known]

/-- An alert that is open when an edit of its rule is announced is open afterwards unless there is a reason to
close it. -/
theorem Call.Comes.openAlertId {reply : Reply} (line : w.InLine)
    (comes : Call.Comes outside (.announceEdit rule) w reply w') :
    (w'.firing rule).openAlertId =
      if ((w.firing rule).endReason (w'.rule? rule)).isNone then (w.firing rule).openAlertId else none := by
  cases comes with
  | @notEdited _ _ w₁ _ e events fetched source aligned =>
    have known : w'.rule? rule = w.rule? rule := by
      have took : w₁.engine.rules.snapshot = w.engine.rules.snapshot := fetched.took
      rw [World.rule?, aligned.rules, World.rule?, ← took]
      rfl
    have same : (w₁.onRules (·.invalidate)).firing rule = w.firing rule := World.firing_of_tracker fetched.tracker
    obtain ⟨-, -, open_⟩ := (fetched.inLine line).invalidate.resets aligned
    rw [open_, same, known]
    rcases line.still rule with shut | fits
    · rw [shut, ite_self]
    · rw [fits]
      rfl
  | @edited _ _ w₁ w₂ _ rules early late fetched source takes aligned =>
    have known : w'.rule? rule = w₁.rule? rule := by rw [World.rule?, aligned.rules, takes.rules, World.rule?]
    obtain ⟨-, -, open_⟩ := (takes.inLine line _ fetched).resets aligned
    obtain ⟨each, -, settles⟩ := takes.settles line fetched
    obtain ⟨time, -, agrees⟩ := settles rule
    rw [open_, agrees.openAlertId, FiringState.openAlertId_settle, known]

theorem Call.Comes.idle {reply : Reply} (line : w.InLine)
    (comes : Call.Comes outside (.announceEdit rule) w reply w') : (w'.firing rule).status ≠ .pending := by
  cases comes with
  | notEdited fetched source aligned => exact ((fetched.inLine line).invalidate.resets aligned).2.1
  | edited fetched source takes aligned => exact ((takes.inLine line _ fetched).resets aligned).2.1

/-- What an announced edit of a rule comes to. -/
structure Passage.Announces (p : Passage) (rule : RuleId) : Prop where
  idle : (p.after.firing rule).status ≠ .pending
  stays : ∀ id, (p.before.firing rule).openAlertId = some id →
    ((p.after.firing rule).openAlertId = some id ↔
      ∃ r, p.after.rule? rule = some r ∧ ∀ known ∈ (p.before.firing rule).fingerprint, known = r.fingerprint)
  ends : ∀ id, (p.before.firing rule).openAlertId = some id → (p.after.firing rule).openAlertId ≠ some id →
    (p.after.firing rule).openAlertId = none ∧ ∃ events time,
      p.reply = .events events ∧
      events.filter (·.ruleId = rule) =
        [.resolved id rule time (if (p.after.rule? rule).isSome then .ruleChanged else .ruleRemoved)] ∧
      (p.before.account rule).Tells (events.filter (·.ruleId = rule)) (p.after.account rule)
  fails : ∀ e, p.after.engine.rules.lastError = some e → p.Fails rule e
  succeeds : p.after.engine.rules.lastError = none → ∃ events, p.Succeeds events
  /-- What is on record is the answer of the source, if that is left alone during the call. -/
  recorded : p.Runs World.BesideSource → p.after.engine.rules.lastError = RuleStore.recorded p.before.source.fetch

theorem Call.Comes.outcome {reply : Reply} (line : p.before.InLine)
    (comes : Call.Comes outside (.announceEdit rule) p.before reply p.after) (same : p.reply = reply) :
    (∃ e, p.after.engine.rules.lastError = some e ∧ p.Fails rule e) ∨
      p.after.engine.rules.lastError = none ∧ ∃ events, p.Succeeds events := by
  cases comes with
  | notEdited fetched source aligned =>
    refine .inl ⟨_, ?_, Passage.fails_of_fetched line fetched aligned same⟩
    rw [aligned.rules]
    exact fetched.lastError
  | edited fetched source takes aligned =>
    refine .inr ⟨?_, _, Passage.succeeds_of_fetched line fetched takes aligned same⟩
    rw [aligned.rules, takes.rules]
    exact fetched.lastError

theorem Call.Comes.recorded {reply : Reply} (steady : SteadySource outside)
    (comes : Call.Comes outside (.announceEdit rule) w reply w') :
    w'.engine.rules.lastError = RuleStore.recorded w.source.fetch := by
  cases comes with
  | notEdited fetched source aligned =>
    rw [aligned.rules, ← source steady]
    exact fetched.lastError
  | edited fetched source takes aligned =>
    rw [aligned.rules, takes.rules, ← source steady]
    exact fetched.lastError

/-- Whatever became of the fetch, the edited rule is visited, and closed if that is due. -/
theorem Passage.Runs.announces (ran : p.Runs outside) (calm : ∀ {w w'}, outside w w' → w.Elsewhere w')
    (line : p.before.InLine) (edits : p.call = .announceEdit rule) : p.Announces rule := by
  have comes {outside : World → World → Prop} (calm : ∀ {w w'}, outside w w' → w.Elsewhere w')
      (ran : p.Runs outside) : Call.Comes outside (.announceEdit rule) p.before p.reply p.after := by
    rw [← edits]
    exact ran.comes line.rest calm (by rw [edits]; trivial)
  have here := comes calm ran
  have open_ := here.openAlertId line
  have outcome := here.outcome line rfl
  refine ⟨here.idle line, fun id was => ?_, fun id was gone => ?_, fun e failed => ?_, fun none => ?_, fun ran => ?_⟩
  · rw [open_, was, ← FiringState.endReason_eq_none]
    cases (p.before.firing rule).endReason (p.after.rule? rule) <;> simp
  · rw [open_, was] at gone
    obtain ⟨reason, due⟩ : ∃ reason, (p.before.firing rule).endReason (p.after.rule? rule) = some reason :=
      Option.ne_none_iff_exists'.mp fun none => gone (by rw [none]; rfl)
    refine ⟨by rw [open_, due]; rfl, ?_⟩
    rcases outcome with ⟨e, -, failed⟩ | ⟨-, events, succeeded⟩
    · have known : p.after.rule? rule = p.before.rule? rule := by rw [World.rule?, failed.snapshot, World.rule?]
      rcases line.still rule with shut | fits
      · exact absurd (shut.symm.trans was) (by simp)
      · exact absurd (fits.symm.trans (known ▸ due)) (by simp)
    · obtain ⟨time, closing⟩ := succeeded.closings rule
      refine ⟨events, time, succeeded.reply, ?_, succeeded.told rule⟩
      rw [closing, World.closing, was, due, ← FiringState.endReason_eq due]
      rfl
  · rcases outcome with ⟨e', failed', fails⟩ | ⟨none, -⟩
    · obtain rfl := Option.some.inj (failed'.symm.trans failed)
      exact fails
    · exact absurd (none.symm.trans failed) (by simp)
  · rcases outcome with ⟨e, failed, -⟩ | ⟨-, succeeds⟩
    · exact absurd (none.symm.trans failed) (by simp)
    · exact succeeds
  · exact (comes And.left ran).recorded fun _ _ => And.right

end Editing

/-! ### Courses -/

theorem Passage.Runs.inLine {p : Passage} (ran : p.Runs World.Elsewhere) (line : p.before.InLine)
    (other : p.call ≠ .recover) : p.after.InLine := by
  by_cases looks : p.call = .health
  · have ends : p.call.program.Ensures (Pact.alone World.Elsewhere) (Team.polled World.Elsewhere) p.before
        fun _ w' => w'.InLine := by
      rw [looks]
      exact (ensures_health line id).bind fun _ _ line' => ensures_pure line'
    exact ran.ends ends
  · have routine : p.call.IsRoutine := by
      cases call : p.call with
      | recover => exact other call
      | health => exact looks call
      | _ => trivial
    exact (ran.comes line.rest id routine).inLine line

/-- On an engine that is new, or that was recovered first, an announced edit keeps its promise whatever was called
before. The rule is not pending afterwards. Its open alert stays open if the present rule, if there is one, has the
fingerprint that was remembered, if there was one; otherwise its end is handed over once and returned once. Where
the fetch failed, the call fails, nothing is produced, all other rules and the snapshot stay as they were, and
another fetch is asked for. -/
theorem Course.every_edit_announced {c : Config} {ps : List Passage} (new : w.engine = .ofConfig c)
    (course : Course (Passage.Runs World.Elsewhere) World.Elsewhere w ps w')
    (once : ∀ p ∈ ps.tail, p.call ≠ .recover) :
    ∀ p ∈ ps, ∀ rule, p.call = .announceEdit rule → p.Announces rule := by
  suffices ∀ p ∈ ps, p.Runs World.Elsewhere ∧ p.before.InLine ∧ p.after.InLine from
    fun p mem rule edits => (this p mem).1.announces id (this p mem).2.1 edits
  cases course with
  | nil => simp
  | @cons _ p ps _ change ran rest =>
    have before : p.before.InLine := (World.inLine_new new).elsewhere change
    have after : p.after.InLine := by
      by_cases recovers : p.call = .recover
      · have alone := Course.inLine new (.cons change ran (.nil _)) (fun q mem => ?_) (by simp)
        · exact (alone p (List.mem_singleton_self p)).2.2
        · obtain rfl := Option.some.inj mem
          exact .inl recovers
      · exact ran.inLine before recovers
    obtain ⟨each, -⟩ := rest.keeps after (fun line change => line.elsewhere change)
      fun p mem line ran => ran.inLine line (once p mem)
    exact List.forall_mem_cons.mpr ⟨⟨ran, before, after⟩, each⟩

end Announcing

/-- The load rises on an engine that was recovered. An edit of the rule is announced while the source is away, and
the alert stays open; it is announced again when the rule has another threshold, and the alert is closed. -/
theorem Course.announces_edit_while_away :
    let away : SourceError := .unavailable "away"
    let calls : List ((World → World) × Call) := [(id, .recover), (id, .sample "load" 95 default),
      ((·.editSource (.setFailure (some away))), .announceEdit "high-load"),
      (fun w => (w.editSource (.setFailure none)).editSource (.setList [{ Rule.highLoad with threshold := some 97 }]),
        .announceEdit "high-load"), (id, .health)]
    let ps := Passage.madeEach (.watched { workers := 1 } {}) calls
    ps.map (fun p => (p.after.firing "high-load").openAlertId) = [none, some "", some "", none, none] ∧
      ps.map (·.after.engine.rules.lastError) = [none, none, some away, none, none] ∧
      ps.map (·.reply.events?.map List.length) = [none, some 1, none, some 1, none] ∧
      ∀ p ∈ ps, ∀ rule, p.call = .announceEdit rule → p.Announces rule := by
  intro away calls ps
  have changes : ∀ c ∈ calls, ∀ w : World, w.Elsewhere (c.1 w) := by
    have resourced (w : World) (source : RuleSource) : w.Elsewhere { w with source } :=
      ⟨_, _, _, _, _, _, _, Nat.le_refl _, rfl⟩
    simp only [calls, List.forall_mem_cons]
    exact ⟨fun w => resourced w _, fun w => resourced w _, fun w => resourced w _, fun w => resourced w _,
      fun w => resourced w _, by simp⟩
  have course : Course (Passage.Runs World.Elsewhere) World.Elsewhere _ ps (Passage.last _ ps) :=
    Course.madeEach changes (by decide +kernel)
  have once : ∀ p ∈ ps.tail, p.call ≠ .recover := by
    simp only [ps, calls, Passage.madeEach, List.tail_cons, List.forall_mem_cons]
    refine ⟨?_, ?_, ?_, ?_, by simp⟩ <;> exact fun same => Call.noConfusion same
  exact ⟨by decide +kernel, by decide +kernel, by decide +kernel,
    Course.every_edit_announced (c := { workers := 1 }) rfl course once⟩

end ThresholdAlerts
