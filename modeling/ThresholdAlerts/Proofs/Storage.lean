import ThresholdAlerts.Proofs.Deliveries
import ThresholdAlerts.Proofs.Records
/-! What the store holds of the alerts of a rule. Main statement: while the calls serve, and whatever they
are answered, the stored alerts of each rule are what the events on their way have left to be done. -/
namespace ThresholdAlerts

open Function

/-! ### The store and the account of a rule -/

/-- What the store holds of the alerts of a rule, by the events of the rule that are on their way. -/
structure Account.Matches (store : AlertStore) (a : Account) (x : Option Work) : Prop where
  fits : a.outbox.Fits x
  inOrder : (a.outbox.pending x).Sublist a.produced
  /-- Once an alert is stored nothing is on its way that was produced before it was opened. -/
  passed : ∀ {before event after id}, a.produced = before ++ event :: after →
    event.opening? = some id → store.Holds id → (a.outbox.pending x).Sublist (event :: after)
  /-- The end of an alert that is open, or is to be, is on its way or was given up. -/
  ends : ∀ {id}, id ∈ Event.closes a.produced →
    store.HoldsOpen id ∨ id ∈ Event.opens (a.outbox.pending x) →
    id ∈ Event.closes (a.outbox.pending x) ∨ id ∈ Event.closes a.abandoned
  unsent : ∀ {id}, id ∈ Event.opens (a.outbox.unsent x) → ¬ store.Holds id
  /-- No alert is closed before its opening has arrived. -/
  live : ∀ {id}, id ∈ Event.opens (a.outbox.pending x) → store.Holds id → store.HoldsOpen id
  /-- A call that was answered well has done what it was to do. -/
  shown : ∀ {event flight}, a.outbox.aloft x = some (event, flight) → flight.answer = some (.ok ()) →
    (∀ id, event.opening? = some id → store.HoldsOpen id) ∧
      ∀ id, event.closing? = some id → ¬ store.HoldsOpen id
  /-- As long as nothing was given up an alert that is not closed is stored or on its way. -/
  arrived : a.abandoned = [] → ∀ {id}, id ∈ Event.opens a.produced →
    id ∉ Event.closes a.produced → store.HoldsOpen id ∨ id ∈ Event.opens (a.outbox.pending x)

variable {store store' : AlertStore} {a a' : Account} {x x' : Option Work} {event : Event} {id : AlertId}

namespace Account

theorem Matches.mem_of_aloft {flight : Flight (Except SinkError Unit)} (h : a.Matches store x)
    (aloft : a.outbox.aloft x = some (event, flight)) : event ∈ a.produced := by
  obtain ⟨rest, order, -⟩ := Outbox.pending_of_aloft h.fits aloft
  exact h.inOrder.subset (order ▸ List.mem_cons_self)

/-- An event leaves for good, or none does. -/
theorem Matches.shrinks (h : a.Matches store x) (fits : a'.outbox.Fits x')
    (calm : ∀ {event flight}, a'.outbox.aloft x' = some (event, flight) → flight.answer = none)
    (produced : a'.produced = a.produced) (abandoned : a.abandoned ⊆ a'.abandoned)
    (pending : (a'.outbox.pending x').Sublist (a.outbox.pending x))
    (unsent : a'.outbox.unsent x' ⊆ a.outbox.unsent x)
    (ends : ∀ {id}, store.HoldsOpen id ∨ id ∈ Event.opens (a'.outbox.pending x') →
      id ∈ Event.closes (a.outbox.pending x) →
      id ∈ Event.closes (a'.outbox.pending x') ∨ id ∈ Event.closes a'.abandoned)
    (arrived : a'.abandoned = [] → ∀ {id}, id ∈ Event.opens (a.outbox.pending x) →
      id ∉ Event.closes a.produced → store.HoldsOpen id ∨ id ∈ Event.opens (a'.outbox.pending x')) :
    a'.Matches store x' where
  fits := fits
  inOrder := produced ▸ pending.trans h.inOrder
  passed whole opens there := pending.trans (h.passed (produced ▸ whole) opens there)
  ends {id} closed here := by
    rcases h.ends (produced ▸ closed) (here.imp_right fun mem => (Event.opens_sublist pending).subset mem) with
      waits | gone
    · exact ends here waits
    · obtain ⟨event, mem, closes⟩ := Event.mem_closes.mp gone
      exact .inr (Event.mem_closes.mpr ⟨event, abandoned mem, closes⟩)
  unsent mem := h.unsent (Event.opens_subset unsent mem)
  live mem := h.live ((Event.opens_sublist pending).subset mem)
  shown aloft done := absurd (done.symm.trans (calm aloft)) (by simp)
  arrived none {id} opened open_ := by
    have before : a.abandoned = [] := List.eq_nil_iff_forall_not_mem.mpr fun event mem => by
      have after := abandoned mem
      rw [none] at after
      exact absurd after (by simp)
    rcases h.arrived before (produced ▸ opened) (produced ▸ open_) with there | waits
    · exact .inl there
    · exact arrived none waits (produced ▸ open_)

theorem Matches.joins (h : a.Matches store x) (fits : a'.outbox.Fits x')
    (calm : ∀ {event flight}, a'.outbox.aloft x' = some (event, flight) → flight.answer = none)
    (coheres : a.Coheres none) (once : (Event.opens a'.produced).Nodup)
    (fresh : ∀ {id}, event.opening? = some id → ¬ store.Holds id)
    (produced : a'.produced = a.produced ++ [event]) (abandoned : a'.abandoned = a.abandoned)
    (pending : a'.outbox.pending x' = a.outbox.pending x ++ [event])
    (unsent : a'.outbox.unsent x' = a.outbox.unsent x ++ [event]) : a'.Matches store x' where
  fits := fits
  inOrder := by
    rw [pending, produced]
    exact h.inOrder.append_right _
  passed {before first after id} whole opens there := by
    rw [produced] at whole
    rcases List.eq_nil_or_concat' after with rfl | ⟨front, last, rfl⟩
    · obtain ⟨-, same⟩ := List.append_inj' whole rfl
      obtain rfl := List.singleton_inj.mp same
      exact absurd there (fresh opens)
    · rw [← List.cons_append, ← List.append_assoc] at whole
      obtain ⟨earlier, same⟩ := List.append_inj' whole rfl
      rw [pending, same, ← List.cons_append]
      exact (h.passed earlier opens there).append_right _
  ends {id} closed here := by
    rw [produced, Event.closes_append, List.mem_append] at closed
    rw [pending, Event.opens_append, List.mem_append] at here
    rw [pending, abandoned, Event.closes_append, List.mem_append, or_right_comm]
    refine closed.imp_left fun closed => h.ends closed (here.imp_right fun waits => ?_)
    refine waits.resolve_right fun new => ?_
    have opened := coheres.alternates.opened_of_closed closed
    rw [produced, Event.opens_append, List.nodup_append] at once
    exact once.2.2 id opened id new rfl
  unsent {id} mem := by
    rw [unsent, Event.opens_append, List.mem_append, Event.mem_opens_cons] at mem
    rcases mem with waits | opens | none
    · exact h.unsent waits
    · exact fresh opens
    · exact absurd none (by simp)
  live {id} mem there := by
    rw [pending, Event.opens_append, List.mem_append, Event.mem_opens_cons] at mem
    rcases mem with waits | opens | none
    · exact h.live waits there
    · exact absurd there (fresh opens)
    · exact absurd none (by simp)
  shown aloft done := absurd (done.symm.trans (calm aloft)) (by simp)
  arrived none {id} opened open_ := by
    rw [produced, Event.opens_append, List.mem_append] at opened
    rw [produced, Event.closes_append, List.mem_append, not_or] at open_
    rw [pending, Event.opens_append, List.mem_append, ← or_assoc]
    exact opened.imp_left fun opened => h.arrived (abandoned ▸ none) opened open_.1

/-- What was acknowledged is done in the store already, so it need not be on its way any more. -/
theorem Matches.arrives {flight : Flight (Except SinkError Unit)} (h : a.Matches store x)
    (fits : a'.outbox.Fits x')
    (calm : ∀ {event flight}, a'.outbox.aloft x' = some (event, flight) → flight.answer = none)
    (coheres : a.Coheres none) (once : (Event.opens a'.produced).Nodup)
    (aloft : a.outbox.aloft x = some (event, flight)) (done : flight.answer = some (.ok ()))
    (produced : a'.produced = a.produced) (abandoned : a'.abandoned = a.abandoned)
    (pending : a.outbox.pending x = event :: a'.outbox.pending x')
    (unsent : a'.outbox.unsent x' ⊆ a.outbox.unsent x) : a'.Matches store x' := by
  obtain ⟨opened, closed⟩ := h.shown aloft done
  have order : (event :: a'.outbox.pending x').Sublist a.produced := pending ▸ h.inOrder
  refine h.shrinks fits calm produced (fun _ mem => abandoned ▸ mem) ?_ unsent
    (fun {id} here waits => ?_) fun _ id waits open_ => ?_
  · rw [pending]
    exact List.sublist_cons_self ..
  · rw [pending, Event.mem_closes_cons] at waits
    rcases waits with closes | waits
    · have later := coheres.alternates.not_opened_after (produced ▸ once) order closes
      rcases here with there | there
      · exact absurd there (closed id closes)
      · exact absurd (Event.mem_opens_cons.mpr (.inr there)) later
    · exact .inl waits
  · rw [pending, Event.mem_opens_cons] at waits
    exact waits.imp_left (opened id)

theorem Matches.lost {before after : List Event} (h : a.Matches store x) (fits : a'.outbox.Fits x')
    (calm : ∀ {event flight}, a'.outbox.aloft x' = some (event, flight) → flight.answer = none)
    (produced : a'.produced = a.produced) (abandoned : a'.abandoned = event :: a.abandoned)
    (pending : a.outbox.pending x = before ++ event :: after)
    (pending' : a'.outbox.pending x' = before ++ after)
    (unsent : a'.outbox.unsent x' ⊆ a.outbox.unsent x) : a'.Matches store x' := by
  refine h.shrinks fits calm produced (fun _ mem => ?_) ?_ unsent (fun {id} _ waits => ?_) fun none => ?_
  · rw [abandoned]
    exact List.mem_cons_of_mem _ mem
  · rw [pending, pending']
    exact (List.sublist_cons_self ..).append_left _
  · rw [pending, Event.closes_append, List.mem_append, Event.mem_closes_cons] at waits
    rw [pending', abandoned, Event.closes_append, List.mem_append, Event.mem_closes_cons]
    rcases waits with first | here | later
    · exact .inl (.inl first)
    · exact .inr (.inl here)
    · exact .inl (.inr later)
  · rw [abandoned] at none
    exact absurd none (by simp)

/-- The opening was never sent: the store knows nothing of the alert, and nothing is left to be done. -/
theorem Matches.cancels {alert : Alert} {before after : List Event} (h : a.Matches store x)
    (fits : a'.outbox.Fits x')
    (calm : ∀ {event flight}, a'.outbox.aloft x' = some (event, flight) → flight.answer = none)
    (once : (Event.opens a'.produced).Nodup) (closes : event.closing? = some alert.id)
    (untried : .opened alert ∈ a.outbox.unsent x) (produced : a'.produced = a.produced)
    (abandoned : a'.abandoned = a.abandoned)
    (pending : a.outbox.pending x = before ++ .opened alert :: event :: after)
    (pending' : a'.outbox.pending x' = before ++ after)
    (unsent : a'.outbox.unsent x' ⊆ a.outbox.unsent x) : a'.Matches store x' := by
  have absent : alert.id ∉ Event.opens (a'.outbox.pending x') := by
    have once' := (produced ▸ once).sublist (Event.opens_sublist h.inOrder)
    rw [pending, Event.opens_append, Event.opens_opened, List.nodup_append, List.nodup_cons] at once'
    rw [pending', Event.opens_append, List.mem_append]
    rintro (first | later)
    · exact once'.2.2 _ first _ List.mem_cons_self rfl
    · exact once'.2.1.1 (Event.mem_opens_cons.mpr (.inr later))
  have closed : alert.id ∈ Event.closes a.produced := by
    refine (Event.closes_sublist h.inOrder).subset (Event.mem_closes.mpr ⟨event, ?_, closes⟩)
    rw [pending]
    simp
  have unstored : ¬ store.Holds alert.id := h.unsent (Event.mem_opens.mpr ⟨_, untried, rfl⟩)
  refine h.shrinks fits calm produced (fun _ mem => abandoned ▸ mem) ?_ unsent
    (fun {id} here waits => ?_) fun _ id waits open_ => ?_
  · rw [pending, pending']
    exact ((List.sublist_cons_self ..).trans (List.sublist_cons_self ..)).append_left _
  · rw [pending, Event.closes_append, Event.closes_opened, List.mem_append, Event.mem_closes_cons] at waits
    rw [pending', Event.closes_append, List.mem_append]
    rcases waits with first | same | later
    · exact .inl (.inl first)
    · obtain rfl := Option.some.inj (closes.symm.trans same)
      exact (here.elim (fun there => unstored there.holds) absent).elim
    · exact .inl (.inr later)
  · have none : event.opening? = none := by
      obtain ⟨rule, time, reason, rfl⟩ := Event.eq_resolved closes
      rfl
    rw [pending, Event.opens_append, Event.opens_opened, List.mem_append, List.mem_cons,
      Event.mem_opens_cons, none] at waits
    rw [pending', Event.opens_append, List.mem_append]
    rcases waits with first | rfl | none | later
    · exact .inr (.inl first)
    · exact absurd closed open_
    · exact absurd none (by simp)
    · exact .inr (.inr later)

theorem Passage.matches (passage : a.Passage x a' x') (h : a.Matches store x)
    (fits : a'.outbox.Fits x')
    (calm : ∀ {event flight}, a'.outbox.aloft x' = some (event, flight) → flight.answer = none)
    (coheres : a.Coheres none) (once : (Event.opens a'.produced).Nodup)
    (fresh : ∀ {id}, id ∈ Event.opens a'.produced → id ∉ Event.opens a.produced → ¬ store.Holds id) :
    a'.Matches store x' := by
  cases passage with
  | stays produced abandoned pending unsent =>
      refine h.shrinks fits calm produced (fun _ mem => abandoned ▸ mem) (pending ▸ .refl _) unsent
        (fun _ waits => .inl (pending ▸ waits)) fun _ _ waits _ => .inr (pending ▸ waits)
  | joins event produced abandoned pending unsent =>
      refine h.joins fits calm coheres once (fun {id} opens => fresh ?_ ?_) produced abandoned pending unsent
      · rw [produced, Event.opens_append, List.mem_append, Event.mem_opens_cons]
        exact .inr (.inl opens)
      · intro earlier
        rw [produced, Event.opens_append, List.nodup_append] at once
        exact once.2.2 id earlier id (Event.mem_opens_cons.mpr (.inl opens)) rfl
  | arrives event flight aloft done produced abandoned pending unsent =>
      exact h.arrives fits calm coheres once aloft done produced abandoned pending unsent
  | lost event before after produced abandoned pending pending' unsent =>
      exact h.lost fits calm produced abandoned pending pending' unsent
  | cancels alert event before after closes untried produced abandoned pending pending' unsent =>
      exact h.cancels fits calm once closes untried produced abandoned pending pending' unsent

/-- What is done to other alerts is no business of the rule. -/
theorem Matches.congr (h : a.Matches store x) (coheres : a.Coheres none)
    (holds : ∀ {id}, id ∈ Event.opens a.produced → store'.Holds id → store.Holds id)
    (open_ : ∀ {id}, id ∈ Event.opens a.produced → (store'.HoldsOpen id ↔ store.HoldsOpen id)) :
    a.Matches store' x := by
  have waits {id : AlertId} (mem : id ∈ Event.opens (a.outbox.pending x)) : id ∈ Event.opens a.produced :=
    (Event.opens_sublist h.inOrder).subset mem
  refine ⟨h.fits, h.inOrder, fun {before event after id} whole opens there => ?_,
    fun {id} mem here => ?_, fun {id} mem there => ?_, fun {id} mem there => ?_,
    fun {event flight} aloft done => ?_, fun none {id} opened ne => ?_⟩
  · refine h.passed whole opens (holds ?_ there)
    rw [whole]
    exact Event.mem_opens.mpr ⟨event, by simp, opens⟩
  · exact h.ends mem (here.imp_left (open_ (coheres.alternates.opened_of_closed mem)).mp)
  · exact h.unsent mem (holds (waits (Event.opens_subset (Outbox.unsent_subset _ _) mem)) there)
  · exact (open_ (waits mem)).mpr (h.live mem (holds (waits mem) there))
  · obtain ⟨opened, shut⟩ := h.shown aloft done
    have mem : event ∈ a.produced := h.mem_of_aloft aloft
    refine ⟨fun id opens => ?_, fun id closes there => shut id closes ?_⟩
    · exact (open_ (Event.mem_opens.mpr ⟨event, mem, opens⟩)).mpr (opened id opens)
    · have closed := Event.mem_closes.mpr ⟨event, mem, closes⟩
      exact (open_ (coheres.alternates.opened_of_closed closed)).mp there
  · exact (h.arrived none opened ne).imp_left (open_ opened).mpr

theorem Matches.acts {flight : Flight (Except SinkError Unit)} {answer : Except SinkError Unit}
    (h : a.Matches store x) (coheres : a.Coheres none) (once : (Event.opens a.produced).Nodup)
    (aloft : a.outbox.aloft x = some (event, flight))
    (changes : store.Changes event (answer = .ok ()) store') :
    a.Matches store' (x.map (Work.answered answer)) := by
  obtain ⟨pending, unsent, fits, aloft'⟩ := a.outbox.moves_answered x answer
  obtain ⟨rest, order, behind⟩ := Outbox.pending_of_aloft h.fits aloft
  have sent : (event :: rest).Sublist a.produced := order ▸ h.inOrder
  have mem : event ∈ a.produced := sent.subset List.mem_cons_self
  have next {id : AlertId} (opens : event.opening? = some id) : id ∈ Event.opens (a.outbox.pending x) := by
    rw [order]
    exact Event.mem_opens_cons.mpr (.inl opens)
  -- The event at hand is the next of those on their way, so it closes nothing that they open.
  have live {id : AlertId} (waits : id ∈ Event.opens (a.outbox.pending x)) (there : store'.Holds id) :
      store'.HoldsOpen id := by
    refine changes.live (h.live waits) (fun closes => ?_) (fun alert made => ?_) there
    · exact coheres.alternates.not_opened_after once sent closes (order ▸ waits)
    · exact coheres.live alert (made ▸ mem)
  refine ⟨fits h.fits, pending ▸ h.inOrder, fun {before first after id} whole opens there => ?_,
    fun {id} closed here => ?_, fun {id} mem there => ?_, fun mem there => live (pending ▸ mem) there,
    fun {event' flight'} sent' done => ?_, fun none {id} opened ne => ?_⟩
  · rw [pending]
    rcases changes.holds there with was | own
    · exact h.passed whole opens was
    · rw [order]
      refine Event.sublist_of_head (whole ▸ sent) fun earlier => ?_
      rw [whole, Event.opens_append, List.nodup_append] at once
      exact once.2.2 id (Event.mem_opens.mpr ⟨event, earlier, own⟩) id
        (Event.mem_opens_cons.mpr (.inl opens)) rfl
  · rw [pending] at here ⊢
    refine h.ends closed ?_
    rcases here with there | waits
    · exact (changes.holdsOpen there).imp_right next
    · exact .inr waits
  · rw [unsent] at mem
    rcases changes.holds there with was | own
    · exact h.unsent mem was
    · have later : id ∈ Event.opens rest := (Event.opens_sublist behind).subset mem
      have once' := once.sublist (Event.opens_sublist sent)
      obtain ⟨alert, rfl, rfl⟩ := Event.eq_opened own
      exact (List.nodup_cons.mp once').1 later
  · rw [aloft', aloft] at sent'
    obtain ⟨rfl, rfl⟩ := Prod.mk.inj (Option.some.inj sent')
    have ok : answer = .ok () := Option.some.inj done
    exact ⟨fun id opens => live (next opens) (changes.created ok id opens), changes.closed ok⟩
  · rw [pending]
    refine (h.arrived none opened ne).imp_left fun there => changes.keepsOpen there fun closes => ?_
    exact ne (Event.mem_closes.mpr ⟨event, mem, closes⟩)

end Account

/-! ### Every interleaving -/

variable {w w' : World} {rule : RuleId} {slot : SlotId} {work : Work} {regime : Regime}
  {holders : RuleId → Option Work} {value : Nat → AlertId}

/-- Nothing that happens under a slot touches the store but the calls that act. -/
theorem Happens.acts_or (happens : Happens regime rule slot w x w' x')
    (found : w.engine.tracker.find? rule = some slot) :
    (w'.sink.store = w.sink.store ∧ ∀ {outbox : Outbox} {event flight},
        outbox.aloft x' = some (event, flight) → flight.answer = none) ∨
      ∃ event flight, (w.account rule).outbox.aloft x = some (event, flight) ∧
        w' = { w with sink := (w.sink.deliver flight.act.deed event).1 } ∧
        x' = x.map (Work.answered (w.sink.deliver flight.act.deed event).2) := by
  have here := World.account_of_find found
  have store (event : Event) : (w.sink.startDelivery event).1.store = w.sink.store := by
    cases event <;> rfl
  cases happens with
  | edit edit =>
      refine .inl ⟨congrArg Sink.store edit.sink, fun aloft => ?_⟩
      cases edit <;> exact absurd aloft (by simp [Outbox.aloft])
  | taken => exact .inl ⟨rfl, fun aloft => absurd aloft (by simp [Outbox.aloft])⟩
  | @sent event todo start empty =>
      refine .inl ⟨store event, fun aloft => ?_⟩
      obtain ⟨rfl, rfl⟩ := Prod.mk.inj (Option.some.inj aloft)
      rfl
  | @resent front rest start due =>
      refine .inl ⟨store front.event, fun {outbox} _ _ aloft => ?_⟩
      obtain ⟨d, -, same⟩ := Option.map_eq_some_iff.mp aloft
      obtain ⟨rfl, rfl⟩ := Prod.mk.inj same
      rfl
  | @acted event todo flight waits => exact .inr ⟨event, flight, rfl, rfl, rfl⟩
  | @actedAgain front rest flight due waits =>
      refine .inr ⟨front.event, flight, ?_, rfl, rfl⟩
      rw [here, due]
      rfl
  | accepted => exact .inl ⟨rfl, fun aloft => absurd aloft (by simp [Outbox.aloft])⟩
  | refused => exact .inl ⟨rfl, fun aloft => absurd aloft (by simp [Outbox.aloft])⟩
  | acceptedAgain => exact .inl ⟨rfl, fun aloft => absurd aloft (by simp [Outbox.aloft])⟩
  | refusedAgain => exact .inl ⟨rfl, fun aloft => absurd aloft (by simp [Outbox.aloft])⟩

/-- The store holds what the events of each rule say, and no record but of alerts that were opened. -/
structure World.Filed (value : Nat → AlertId) (w : World) (holders : RuleId → Option Work) : Prop where
  lives : w.Lives (fun _ => none) value
  agree : ∀ rule, (w.account rule).Matches w.sink.store (holders rule)
  owned : ∀ {id record}, w.sink.store.get? id = some record →
    record.id = id ∧ id ∈ Event.opens (w.account record.ruleId).produced

theorem World.Filed.passes {x' : Option Work} (filed : w.Filed value holders)
    (lives' : w'.Lives (fun _ => none) value) (advances : w.Advances .serving rule slot (holders rule) w' x')
    (kept : w'.sink.store = w.sink.store)
    (calm : ∀ {event flight}, (w'.account rule).outbox.aloft x' = some (event, flight) → flight.answer = none) :
    w'.Filed value (update holders rule x') := by
  obtain ⟨lives, agree, owned⟩ := filed
  have passage := advances.turn.passage (agree rule).fits
  have grows : ∀ rule', (w.account rule').produced.Sublist (w'.account rule').produced :=
    advances.each_account (P := fun rule' a => (w.account rule').produced.Sublist a.produced)
      passage.produced_sublist fun _ => .refl _
  have matches' : (w'.account rule).Matches w.sink.store x' := by
    refine passage.matches (agree rule) (advances.turn.fits (agree rule).fits) calm
      (lives.coheres rule) (World.nodup_of_openings lives'.once) fun {id} opened new there => ?_
    -- The record under an id that is opened now would be of an alert that was opened before.
    obtain ⟨record, there⟩ := there
    have before := (owned there).2
    have now := (Event.opens_sublist (grows record.ruleId)).subset before
    obtain rfl := World.opener_unique lives'.once now opened
    exact new before
  refine ⟨lives', fun rule' => ?_, fun {id record} there => ?_⟩
  · rw [kept]
    exact advances.each_work (P := fun _ a x => a.Matches w.sink.store x) matches' agree rule'
  · rw [kept] at there
    exact ⟨(owned there).1, (Event.opens_sublist (grows record.ruleId)).subset (owned there).2⟩

theorem World.Filed.acts {sink : Sink} {flight : Flight (Except SinkError Unit)}
    {answer : Except SinkError Unit} (filed : w.Filed value holders)
    (lives' : { w with sink }.Lives (fun _ => none) value)
    (aloft : (w.account rule).outbox.aloft (holders rule) = some (event, flight))
    (changes : w.sink.store.Changes event (answer = .ok ()) sink.store) :
    { w with sink }.Filed value (update holders rule ((holders rule).map (Work.answered answer))) := by
  obtain ⟨lives, agree, owned⟩ := filed
  have mem : event ∈ (w.account rule).produced := (agree rule).mem_of_aloft aloft
  refine ⟨lives', fun rule' => ?_, fun {id record} there => ?_⟩
  · by_cases same : rule' = rule
    · subst same
      rw [update_self]
      exact (agree rule').acts (lives.coheres rule') (World.nodup_of_openings lives.once) aloft changes
    · rw [update_of_ne same]
      have strange {id : AlertId} (own : id ∈ Event.opens (w.account rule').produced) :
          event.opening? ≠ some id ∧ event.closing? ≠ some id := by
        refine ⟨fun opens => same ?_, fun closes => same ?_⟩
        · exact World.opener_unique lives.once own (Event.mem_opens.mpr ⟨event, mem, opens⟩)
        · have closed := Event.mem_closes.mpr ⟨event, mem, closes⟩
          exact World.opener_unique lives.once own ((lives.coheres rule).alternates.opened_of_closed closed)
      refine (agree rule').congr (lives.coheres rule') (fun own there => ?_) fun own => ⟨fun there => ?_,
        fun there => ?_⟩
      · exact (changes.holds there).resolve_right (strange own).1
      · exact (changes.holdsOpen there).resolve_right (strange own).1
      · exact changes.keepsOpen there (strange own).2
  · rcases changes.records there with ⟨before, here, ruleId, name, -⟩ | ⟨rfl, same⟩
    · obtain ⟨named, opened⟩ := owned here
      exact ⟨name.trans named, ruleId ▸ opened⟩
    · obtain rfl : record.ruleId = rule := (World.mem_produced.mp mem).2
      exact ⟨same, Event.mem_opens.mpr ⟨_, mem, congrArg some same⟩⟩

theorem kept_filed (distinct : Injective value) : Kept .serving (World.Filed value) where
  still := fun {w w' holders} still filed => by
    obtain ⟨lives, agree, owned⟩ := filed
    refine ⟨lives.of_same still.account still.aside.journal still.aside.ids, fun rule => ?_,
      fun {id record} there => ?_⟩
    · rw [still.account, still.aside.store]
      exact agree rule
    · rw [still.account]
      rw [still.aside.store] at there
      exact owned there
  happens := fun {w w' holders rule slot x} attended happens filed => by
    have lives' := (kept_lives distinct).happens attended happens filed.lives
    rcases happens.acts_or attended.found with ⟨store, calm⟩ | ⟨event, flight, aloft, rfl, rfl⟩
    · exact filed.passes lives' (attended.advances happens) store calm
    · exact filed.acts lives' aloft (w.sink.changes_deliver flight.act.deed event)

/-- The world changes from outside of the engine, but nobody else changes the stored records. -/
def World.Apart (w w' : World) : Prop :=
  w.Elsewhere w' ∧ w'.sink.store.alerts = w.sink.store.alerts

theorem Bears.apart {I : World → (RuleId → Option Work) → Prop} (bears : Bears World.Elsewhere I) :
    Bears World.Apart I where
  elsewhere change := change.1
  kept change i := bears.kept change.1 i

theorem bears_filed : Bears World.Apart (World.Filed value) where
  elsewhere change := change.1
  kept := fun {w w' holders} change filed => by
    obtain ⟨elsewhere, records⟩ := change
    obtain ⟨lives, agree, owned⟩ := filed
    have get (id : AlertId) : w'.sink.store.get? id = w.sink.store.get? id := by
      rw [AlertStore.get?, records, AlertStore.get?]
    refine ⟨lives.of_same elsewhere.account elsewhere.engine.2.2.1 elsewhere.engine.2.2.2, fun rule => ?_,
      fun {id record} there => ?_⟩
    · rw [elsewhere.account]
      refine (agree rule).congr (lives.coheres rule) (fun {id} _ there => ?_) fun {id} _ => ?_
      · rw [AlertStore.Holds, ← get]
        exact there
      · rw [AlertStore.HoldsOpen, get, AlertStore.HoldsOpen]
    · rw [elsewhere.account]
      exact owned (get id ▸ there)

theorem World.Begins.filed (h : w.Begins) (empty : w.sink.store.alerts = ∅) :
    w.Filed w.ids.value fun _ => none := by
  have none (id : AlertId) : w.sink.store.get? id = none := by
    rw [AlertStore.get?, empty]
    rfl
  have unstored (id : AlertId) : ¬ w.sink.store.Holds id := by
    rintro ⟨record, there⟩
    exact absurd ((none id).symm.trans there) (by simp)
  have lives := h.lives
  rw [show w.openAlert = fun _ => Option.none from funext h.openAlert] at lives
  refine ⟨lives, fun rule => ?_, fun {id record} there => (unstored id ⟨record, there⟩).elim⟩
  rw [h.account]
  refine ⟨trivial, .refl _, fun _ _ there => (unstored _ there).elim, fun closed => ?_, fun _ => unstored _,
    fun _ there => (unstored _ there).elim, fun aloft => ?_, fun _ _ opened => ?_⟩
  · exact absurd closed (by simp [Account.produced])
  · exact absurd aloft (by simp [Outbox.aloft])
  · exact absurd opened (by simp [Account.produced])

end ThresholdAlerts
