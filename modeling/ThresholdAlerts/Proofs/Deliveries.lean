import ThresholdAlerts.Proofs.Books
/-! The way of events to the sink. Main statement: with every turn of the service the events of a rule
that are on their way stay in the order in which they were produced; one of them joins at the back,
arrives, is given up, or two of them of which none was sent cancel each other. -/
namespace ThresholdAlerts

namespace Outbox

def untried (outbox : Outbox) : List Event :=
  (outbox.filter (·.failures = 0)).map (·.event)

/-- The events on their way to the sink, in the order in which they are to get there: those that wait,
the one at hand and those that are still to be handed over. -/
def pending (outbox : Outbox) : Option Work → List Event
  | some { todo, stage := .accepted } => outbox.tail.map (·.event) ++ todo
  | some { todo, stage } => outbox.map (·.event) ++ stage.events ++ todo
  | none => outbox.map (·.event)

/-- Those of them that were not sent yet. -/
def unsent (outbox : Outbox) : Option Work → List Event
  | some { todo, stage := .rest } => outbox.untried ++ todo
  | some { todo, stage := .draining } => outbox.untried ++ todo
  | some { todo, stage := .handed event } => outbox.untried ++ event :: todo
  | some { todo, stage := .sending .. } => todo
  | some { todo, stage := .failed .. } => todo
  | some { todo, .. } => untried outbox.tail ++ todo
  | none => outbox.untried

def aloft (outbox : Outbox) : Option Work → Option (Event × Flight (Except SinkError Unit))
  | some { stage := .sending event flight, .. } => some (event, flight)
  | some { stage := .retrying flight, .. } => outbox.head?.map fun front => (front.event, flight)
  | _ => none

/-- An event is sent for the first time only if none waits. -/
def Fits (outbox : Outbox) : Option Work → Prop
  | some { stage := .sending .., .. } => outbox = []
  | _ => True

theorem untried_append (outbox outbox' : Outbox) :
    untried (outbox ++ outbox') = outbox.untried ++ outbox'.untried := by
  rw [untried, List.filter_append, List.map_append]
  rfl

theorem untried_sublist {outbox outbox' : Outbox} (h : List.Sublist outbox outbox') :
    outbox.untried.Sublist outbox'.untried :=
  (h.filter _).map _

theorem untried_sublist_map (outbox : Outbox) : outbox.untried.Sublist (outbox.map (·.event)) :=
  List.filter_sublist.map _

theorem untried_cons_of_tried {d : Delivery} (tried : d.failures ≠ 0) (rest : Outbox) :
    untried (d :: rest) = untried rest := by
  rw [untried, List.filter_cons_of_neg (by simpa using tried)]
  rfl

variable {outbox : Outbox} {x : Option Work} {event : Event} {flight : Flight (Except SinkError Unit)}

theorem unsent_subset (outbox : Outbox) (x : Option Work) : outbox.unsent x ⊆ outbox.pending x := by
  have tail : (untried outbox.tail).Sublist (outbox.map (·.event)) :=
    (untried_sublist (List.tail_sublist outbox)).trans outbox.untried_sublist_map
  cases x with
  | none => exact outbox.untried_sublist_map.subset
  | some work =>
      obtain ⟨todo, stage⟩ := work
      refine List.Sublist.subset ?_
      cases stage with
      | rest =>
          simp only [unsent, pending, Stage.events, List.append_nil]
          exact outbox.untried_sublist_map.append_right _
      | handed event =>
          simp only [unsent, pending, Stage.events, List.append_assoc]
          exact outbox.untried_sublist_map.append_right _
      | sending event flight => exact List.sublist_append_right _ _
      | failed event error => exact List.sublist_append_right _ _
      | draining =>
          simp only [unsent, pending, Stage.events, List.append_nil]
          exact outbox.untried_sublist_map.append_right _
      | accepted =>
          simp only [unsent, pending]
          exact (untried_sublist_map _).append_right _
      | retrying flight =>
          simp only [unsent, pending, Stage.events, List.append_nil]
          exact tail.append_right _
      | refused error =>
          simp only [unsent, pending, Stage.events, List.append_nil]
          exact tail.append_right _

theorem pending_of_aloft (fits : outbox.Fits x) (aloft : outbox.aloft x = some (event, flight)) :
    ∃ rest, outbox.pending x = event :: rest ∧ (outbox.unsent x).Sublist rest := by
  cases x with
  | none => exact absurd aloft (by simp [Outbox.aloft])
  | some work =>
      obtain ⟨todo, stage⟩ := work
      cases stage with
      | sending event' flight' =>
          obtain ⟨rfl, rfl⟩ := Prod.mk.inj (Option.some.inj aloft)
          obtain rfl : outbox = [] := fits
          exact ⟨todo, rfl, .refl _⟩
      | retrying flight' =>
          cases outbox with
          | nil => exact absurd aloft (by simp [Outbox.aloft])
          | cons front rest =>
              obtain ⟨rfl, rfl⟩ := Prod.mk.inj (Option.some.inj aloft)
              refine ⟨rest.map (·.event) ++ todo, ?_, ?_⟩
              · simp only [pending, Stage.events, List.append_nil, List.map_cons, List.cons_append]
              · simp only [unsent, List.tail_cons]
                exact (untried_sublist_map rest).append_right _
      | _ => exact absurd aloft (by simp [Outbox.aloft])

end Outbox

/-- The work once the call to the sink has acted. -/
def Work.answered (answer : Except SinkError Unit) (work : Work) : Work :=
  match work.stage with
  | .sending event flight => { work with stage := .sending event (flight.answered answer) }
  | .retrying flight => { work with stage := .retrying (flight.answered answer) }
  | _ => work

theorem Outbox.moves_answered (outbox : Outbox) (x : Option Work) (answer : Except SinkError Unit) :
    outbox.pending (x.map (Work.answered answer)) = outbox.pending x ∧
      outbox.unsent (x.map (Work.answered answer)) = outbox.unsent x ∧
      (outbox.Fits x → outbox.Fits (x.map (Work.answered answer))) ∧
      outbox.aloft (x.map (Work.answered answer)) =
        (outbox.aloft x).map fun sent => (sent.1, sent.2.answered answer) := by
  cases x with
  | none => exact ⟨rfl, rfl, id, rfl⟩
  | some work =>
      obtain ⟨todo, stage⟩ := work
      cases stage with
      | retrying flight =>
          refine ⟨rfl, rfl, id, ?_⟩
          cases outbox <;> rfl
      | _ => exact ⟨rfl, rfl, id, rfl⟩

/-! ### Passages -/

/-- The events of a rule that were given up, the newest first. -/
def Account.abandoned (a : Account) : List Event :=
  (a.past.filterMap Happening.abandoned?).map (·.1)

/-- What a turn does to the events that are on their way. -/
inductive Account.Passage (a : Account) (x : Option Work) (a' : Account) (x' : Option Work) : Prop
  | stays (produced : a'.produced = a.produced) (abandoned : a'.abandoned = a.abandoned)
      (pending : a'.outbox.pending x' = a.outbox.pending x)
      (unsent : a'.outbox.unsent x' ⊆ a.outbox.unsent x)
  | joins (event : Event) (produced : a'.produced = a.produced ++ [event])
      (abandoned : a'.abandoned = a.abandoned)
      (pending : a'.outbox.pending x' = a.outbox.pending x ++ [event])
      (unsent : a'.outbox.unsent x' = a.outbox.unsent x ++ [event])
  | arrives (event : Event) (flight : Flight (Except SinkError Unit))
      (aloft : a.outbox.aloft x = some (event, flight)) (done : flight.answer = some (.ok ()))
      (produced : a'.produced = a.produced) (abandoned : a'.abandoned = a.abandoned)
      (pending : a.outbox.pending x = event :: a'.outbox.pending x')
      (unsent : a'.outbox.unsent x' ⊆ a.outbox.unsent x)
  | lost (event : Event) (before after : List Event) (produced : a'.produced = a.produced)
      (abandoned : a'.abandoned = event :: a.abandoned)
      (pending : a.outbox.pending x = before ++ event :: after)
      (pending' : a'.outbox.pending x' = before ++ after)
      (unsent : a'.outbox.unsent x' ⊆ a.outbox.unsent x)
  /-- An event closes an alert whose opening was not sent; both are dropped. -/
  | cancels (alert : Alert) (event : Event) (before after : List Event)
      (closes : event.closing? = some alert.id) (fresh : .opened alert ∈ a.outbox.unsent x)
      (produced : a'.produced = a.produced) (abandoned : a'.abandoned = a.abandoned)
      (pending : a.outbox.pending x = before ++ .opened alert :: event :: after)
      (pending' : a'.outbox.pending x' = before ++ after)
      (unsent : a'.outbox.unsent x' ⊆ a.outbox.unsent x)

variable {regime : Regime} {rule : RuleId} {m : Moment} {a a' : Account} {x x' : Option Work}

theorem Turn.fits (turn : Turn regime rule m a x a' x') (fits : a.outbox.Fits x) :
    a'.outbox.Fits x' := by
  cases turn with
  | sent empty => exact empty
  | acted => exact fits
  | _ => trivial

namespace Account

variable {event : Event} {todo : List Event} {flight : Flight (Except SinkError Unit)} {error : SinkError}
  {d front front' : Delivery} {rest : Outbox}

theorem passage_changed (a : Account) (c : FiringState.Change) (todo : List Event) :
    a.Passage (some { todo })
      { a with
        state := (a.state.apply c).1
        past := (a.state.apply c).2.toList.map .produced ++ a.past }
      (some { todo := todo ++ (a.state.apply c).2.toList }) := by
  have produced := a.produced_changed (a.state.apply c).1 (a.state.apply c).2
  generalize (a.state.apply c).1 = state at *
  generalize (a.state.apply c).2 = event at *
  cases event with
  | none => exact .stays rfl rfl (by simp) (by simp)
  | some event =>
      exact .joins event produced rfl (by simp [Outbox.pending, Stage.events]) (by simp [Outbox.unsent])

theorem passage_queued (same : d.event = event) (untried : d.failures = 0) :
    a.Passage (some { todo, stage := .handed event }) { a with outbox := a.outbox ++ [d] } (some { todo }) := by
  have new : Outbox.untried [d] = [event] := by simp [Outbox.untried, untried, same]
  refine .stays rfl rfl (by simp [Outbox.pending, Stage.events, same]) ?_
  simp [Outbox.unsent, Outbox.untried_append, new]

theorem passage_cancelled (cancels : a.outbox.cancelledBy? event = some d) :
    a.Passage (some { todo, stage := .handed event })
      { a with outbox := a.outbox.dropLast, past := .cancelled d.event event :: a.past } (some { todo }) := by
  obtain ⟨shape, alert, opening, untried, closes⟩ := Outbox.cancels_last cancels
  generalize a.outbox.dropLast = kept at *
  have new : Outbox.untried [d] = [.opened alert] := by simp [Outbox.untried, untried, opening]
  refine .cancels alert event (kept.map (·.event)) todo closes ?_ (a.produced_cons rfl) rfl ?_ ?_ ?_
  · simp [Outbox.unsent, ← shape, Outbox.untried_append, new]
  · simp [Outbox.pending, Stage.events, ← shape, opening]
  · simp [Outbox.pending, Stage.events]
  · intro event' mem
    rw [← shape, Outbox.unsent, Outbox.untried_append]
    simp only [Outbox.unsent, List.mem_append, List.mem_cons] at mem ⊢
    exact mem.elim (fun there => .inl (.inl there)) fun there => .inr (.inr there)

theorem passage_overflow (a : Account) (event : Event) (todo : List Event) :
    a.Passage (some { todo, stage := .handed event }) { a with past := .abandoned event 0 :: a.past }
      (some { todo }) :=
  .lost event (a.outbox.map (·.event)) todo (a.produced_cons rfl) rfl
    (by simp [Outbox.pending, Stage.events]) (by simp [Outbox.pending, Stage.events]) (by simp [Outbox.unsent])

theorem passage_accepted (empty : a.outbox = []) (done : flight.answer = some (.ok ())) :
    a.Passage (some { todo, stage := .sending event flight })
      { a with past := .answered event (.ok ()) :: a.past } (some { todo }) :=
  .arrives event flight rfl done (a.produced_cons rfl) rfl (by simp [Outbox.pending, Stage.events, empty])
    (by simp [Outbox.unsent, Outbox.untried, empty])

theorem passage_postponed (empty : a.outbox = []) (same : d.event = event) (tried : d.failures ≠ 0) :
    a.Passage (some { todo, stage := .failed event error }) { a with outbox := [d] } (some { todo }) := by
  have none : Outbox.untried [d] = [] := Outbox.untried_cons_of_tried tried []
  refine .stays rfl rfl (by simp [Outbox.pending, Stage.events, empty, same]) ?_
  simp [Outbox.unsent, none]

theorem passage_dropped (empty : a.outbox = []) :
    a.Passage (some { todo, stage := .failed event error })
      { a with past := .abandoned event 1 :: a.past } (some { todo }) := by
  refine .lost event [] todo (a.produced_cons rfl) rfl (by simp [Outbox.pending, Stage.events, empty])
    (by simp [Outbox.pending, Stage.events, empty]) ?_
  simp [Outbox.unsent, Outbox.untried, empty]

/-- What is sent again is no longer counted among what was not sent. -/
theorem passage_resent (a : Account) (event : Event) (flight : Flight (Except SinkError Unit)) :
    a.Passage (some { stage := .draining }) { a with past := .sent event :: a.past }
      (some { stage := .retrying flight }) := by
  refine .stays (a.produced_cons rfl) rfl (by simp [Outbox.pending, Stage.events]) ?_
  simpa [Outbox.unsent] using (Outbox.untried_sublist (List.tail_sublist a.outbox)).subset

theorem passage_acceptedAgain (due : a.outbox = front :: rest) (done : flight.answer = some (.ok ())) :
    a.Passage (some { stage := .retrying flight })
      { a with past := .answered front.event (.ok ()) :: a.past } (some { stage := .accepted }) := by
  have aloft : a.outbox.aloft (some { stage := .retrying flight }) = some (front.event, flight) := by
    rw [due]
    rfl
  exact .arrives front.event flight aloft done (a.produced_cons rfl) rfl
    (by simp [Outbox.pending, Stage.events, due]) (by simp [Outbox.unsent])

theorem passage_delayed (due : a.outbox = front :: rest) (same : front'.event = front.event)
    (tried : front'.failures ≠ 0) :
    a.Passage (some { stage := .refused error }) { a with outbox := front' :: rest }
      (some { stage := .draining }) := by
  refine .stays rfl rfl (by simp [Outbox.pending, Stage.events, due, same]) ?_
  simp [Outbox.unsent, Outbox.untried_cons_of_tried tried, due]

theorem passage_givenUp {attempts : Nat} (due : a.outbox = front :: rest) :
    a.Passage (some { stage := .refused error })
      { a with outbox := rest, past := .abandoned front.event attempts :: a.past }
      (some { stage := .draining }) :=
  .lost front.event [] (rest.map (·.event)) (a.produced_cons rfl) rfl
    (by simp [Outbox.pending, Stage.events, due]) (by simp [Outbox.pending, Stage.events])
    (by simp [Outbox.unsent, due])

end Account

theorem Turn.passage (turn : Turn .serving rule m a x a' x') (fits : a.outbox.Fits x) :
    a.Passage x a' x' := by
  cases turn with
  | taken => exact .stays rfl rfl (by simp [Outbox.pending, Stage.events]) (by simp [Outbox.unsent])
  | changed c => exact a.passage_changed c _
  | idle => exact .stays rfl rfl rfl (.refl _)
  | retire => exact .stays rfl rfl rfl (.refl _)
  | seeded alertId recovers => exact absurd rfl recovers
  | hand =>
      exact .stays (a.produced_cons rfl) rfl (by simp [Outbox.pending, Stage.events]) (by simp [Outbox.unsent])
  | handStray recovers => exact absurd rfl recovers
  | queued waits kept room same untried => exact Account.passage_queued same untried
  | cancelled cancels => exact Account.passage_cancelled cancels
  | overflow => exact a.passage_overflow _ _
  | sent empty =>
      exact .stays (a.produced_cons rfl) rfl (by simp [Outbox.pending, Stage.events]) (by simp [Outbox.unsent])
  | acted => exact .stays rfl rfl rfl (.refl _)
  | accepted done => exact Account.passage_accepted fits done
  | refused => exact .stays (a.produced_cons rfl) rfl rfl (.refl _)
  | postponed empty same counted => exact Account.passage_postponed empty same (by omega)
  | dropped empty => exact Account.passage_dropped empty
  | drains => exact .stays rfl rfl rfl (.refl _)
  | drained => exact .stays rfl rfl rfl (.refl _)
  | resent due => exact a.passage_resent _ _
  | actedAgain => exact .stays rfl rfl rfl (.refl _)
  | acceptedAgain due done => exact Account.passage_acceptedAgain due done
  | refusedAgain => exact .stays (a.produced_cons rfl) rfl rfl (.refl _)
  | delivered due =>
      exact .stays rfl rfl (by simp [Outbox.pending, Stage.events, due]) (by simp [Outbox.unsent, due])
  | @delayed front front' rest error due same counted =>
      have tried : front'.failures ≠ 0 := by
        rw [counted]
        exact Nat.ne_of_gt (Nat.lt_min.mpr ⟨Nat.succ_pos _, by decide⟩)
      exact Account.passage_delayed due same tried
  | givenUp due => exact Account.passage_givenUp due
  | left => exact .stays rfl rfl (by simp [Outbox.pending, Stage.events]) (by simp [Outbox.unsent])
  | forgotten retired spent =>
      exact .stays rfl rfl (by simp [Outbox.pending, Stage.events, spent]) (by simp [Outbox.unsent, spent])

theorem Account.Passage.produced_sublist (passage : a.Passage x a' x') :
    a.produced.Sublist a'.produced := by
  cases passage with
  | joins event produced =>
      rw [produced]
      exact List.sublist_append_left ..
  | stays produced => exact produced ▸ .refl _
  | arrives event flight aloft done produced => exact produced ▸ .refl _
  | lost event before after produced => exact produced ▸ .refl _
  | cancels alert event before after closes fresh produced => exact produced ▸ .refl _

end ThresholdAlerts
