import ThresholdAlerts.Alert.Sink
import ThresholdAlerts.Proofs.Alternation
import ThresholdAlerts.Proofs.Maps
/-! The records that calls to the sink leave. Main statement: a call adds no record but the one that it
is to create, keeps every open record but the one that it is to close, and has done so if it says so. -/
namespace ThresholdAlerts

theorem Alert.isOpen_resolve (a : Alert) (time : Timestamp) : (a.resolve time).isOpen = false := by
  rw [isOpen, resolve]
  cases a.resolvedAt <;> rfl

/-- What is closed keeps the time at which it was closed. -/
theorem Alert.resolve_of_closed {a : Alert} (closed : a.isOpen = false) (time : Timestamp) : a.resolve time = a := by
  cases shut : a.resolvedAt with
  | none => exact absurd closed (by simp [isOpen, shut])
  | some first =>
    rw [resolve, shut]
    change { a with resolvedAt := some first } = a
    rw [← shut]

namespace AlertStore

def Holds (s : AlertStore) (id : AlertId) : Prop :=
  ∃ alert, s.get? id = some alert

def HoldsOpen (s : AlertStore) (id : AlertId) : Prop :=
  ∃ alert, s.get? id = some alert ∧ alert.isOpen = true

/-- What a call that sends `event` may do to the records. `ok` tells that it was answered well. -/
structure Changes (event : Event) (ok : Prop) (s s' : AlertStore) : Prop where
  /-- A record was there, with the same names and closed if it is closed now, or was created. -/
  records : ∀ {id alert}, s'.get? id = some alert →
    (∃ before, s.get? id = some before ∧ alert.ruleId = before.ruleId ∧ alert.id = before.id ∧
      (alert.isOpen = true → before.isOpen = true)) ∨ event = .opened alert ∧ alert.id = id
  keeps : ∀ {id alert}, s.get? id = some alert → alert.isOpen = true → event.closing? ≠ some id →
    s'.get? id = some alert
  created : ok → ∀ id, event.opening? = some id → s'.Holds id
  closed : ok → ∀ id, event.closing? = some id → ¬ s'.HoldsOpen id

variable {s s' : AlertStore} {event : Event} {ok : Prop} {id : AlertId}

theorem HoldsOpen.holds (h : s.HoldsOpen id) : s.Holds id := by
  obtain ⟨alert, there, -⟩ := h
  exact ⟨alert, there⟩

theorem Changes.refl (event : Event) (fails : ¬ ok) (s : AlertStore) : s.Changes event ok s :=
  ⟨fun there => .inl ⟨_, there, rfl, rfl, id⟩, fun there _ _ => there, fun done => absurd done fails,
    fun done => absurd done fails⟩

theorem Changes.imp {ok' : Prop} (h : Changes event ok s s') (weaker : ok' → ok) :
    Changes event ok' s s' :=
  ⟨h.records, h.keeps, fun done => h.created (weaker done), fun done => h.closed (weaker done)⟩

theorem Changes.holds (h : Changes event ok s s') (there : s'.Holds id) :
    s.Holds id ∨ event.opening? = some id := by
  obtain ⟨alert, there⟩ := there
  rcases h.records there with ⟨before, here, -⟩ | ⟨rfl, rfl⟩
  · exact .inl ⟨before, here⟩
  · exact .inr rfl

theorem Changes.holdsOpen (h : Changes event ok s s') (there : s'.HoldsOpen id) :
    s.HoldsOpen id ∨ event.opening? = some id := by
  obtain ⟨alert, there, opened⟩ := there
  rcases h.records there with ⟨before, here, -, -, was⟩ | ⟨rfl, rfl⟩
  · exact .inl ⟨before, here, was opened⟩
  · exact .inr rfl

theorem Changes.keepsOpen (h : Changes event ok s s') (there : s.HoldsOpen id)
    (other : event.closing? ≠ some id) : s'.HoldsOpen id := by
  obtain ⟨alert, there, opened⟩ := there
  exact ⟨alert, h.keeps there opened other, opened⟩

theorem Changes.live (h : Changes event ok s s') (was : s.Holds id → s.HoldsOpen id)
    (other : event.closing? ≠ some id) (fresh : ∀ alert, event = .opened alert → alert.isOpen = true)
    (there : s'.Holds id) : s'.HoldsOpen id := by
  obtain ⟨record, get⟩ := there
  rcases h.records get with ⟨before, here, -⟩ | ⟨made, -⟩
  · exact h.keepsOpen (was ⟨before, here⟩) other
  · exact ⟨record, get, fresh record made⟩

theorem get?_insert (s : AlertStore) (alert : Alert) (id : AlertId) :
    (s.insert alert).get? id = if alert.id = id then some alert else s.get? id := by
  simp [get?, insert, Std.TreeMap.getElem?_insert]

theorem get?_makeRoom (s : AlertStore) (id : AlertId) :
    s.makeRoom.get? id = s.get? id ∨ s.makeRoom.get? id = (s.get? id).filter (·.isOpen) := by
  rw [makeRoom]
  split
  · exact .inr Std.TreeMap.getElem?_filter'
  · exact .inl rfl

theorem contains_iff (s : AlertStore) (id : AlertId) : s.alerts.contains id = true ↔ s.Holds id := by
  rw [Std.TreeMap.contains_eq_isSome_getElem?, Option.isSome_iff_exists]
  rfl

/-! ### What a call does -/

theorem checkAvailable_of_available (available : s.unavailable = false) : s.checkAvailable = .ok () := by
  rw [checkAvailable, available]
  rfl

theorem checkAvailable_of_unavailable (unavailable : s.unavailable = true) :
    s.checkAvailable = .error (.unavailable "memory alert store marked unavailable") := by
  rw [checkAvailable, unavailable]
  rfl

theorem create_of_unavailable (unavailable : s.unavailable = true) (alert : Alert) :
    s.create alert = (s, .error (.unavailable "memory alert store marked unavailable")) := by
  rw [create, checkAvailable_of_unavailable unavailable]

theorem create_cases (available : s.unavailable = false) (alert : Alert) :
    s.makeRoom.Holds alert.id ∧ s.create alert = (s.makeRoom, .ok alert.id) ∨
      ¬ s.makeRoom.Holds alert.id ∧ capacity ≤ s.makeRoom.size ∧ s.create alert =
        (s.makeRoom, .error (.rejected ("alert store full (" ++ toString s.makeRoom.size ++ " open alerts)"))) ∨
      ¬ s.makeRoom.Holds alert.id ∧ s.makeRoom.size < capacity ∧
        s.create alert = (s.makeRoom.insert alert, .ok alert.id) := by
  simp only [create, checkAvailable_of_available available]
  split
  · next there => exact .inl ⟨(contains_iff _ _).mp there, rfl⟩
  · next absent =>
    have absent := fun held => absent ((contains_iff _ _).mpr held)
    split
    · next full => exact .inr (.inl ⟨absent, full, rfl⟩)
    · next room => exact .inr (.inr ⟨absent, Nat.lt_of_not_le room, rfl⟩)

theorem resolve_of_stored {record : Alert} (available : s.unavailable = false) (stored : s.get? id = some record)
    (time : Timestamp) : s.resolve id time = ({ s with alerts := s.alerts.insert id (record.resolve time) }, .ok ()) := by
  rw [resolve, checkAvailable_of_available available, stored]

theorem resolve_of_absent (available : s.unavailable = false) (gone : s.get? id = none) (time : Timestamp) :
    s.resolve id time = (s, .error (.notFound id)) := by
  rw [resolve, checkAvailable_of_available available, gone]

theorem resolve_cases (s : AlertStore) (id : AlertId) (time : Timestamp) :
    (∃ before, s.get? id = some before ∧
      s.resolve id time = ({ s with alerts := s.alerts.insert id (before.resolve time) }, .ok ())) ∨
      ∃ e, s.resolve id time = (s, .error e) := by
  rw [resolve]
  cases s.checkAvailable with
  | error e => exact .inr ⟨e, rfl⟩
  | ok _ =>
    cases s.get? id with
    | none => exact .inr ⟨_, rfl⟩
    | some before => exact .inl ⟨before, rfl, rfl⟩

/-! ### What a call changes -/

theorem changes_makeRoom (s : AlertStore) (event : Event) : s.Changes event False s.makeRoom := by
  refine ⟨fun {id alert} there => ?_, fun {id alert} there opened _ => ?_, False.elim, False.elim⟩
  · rcases s.get?_makeRoom id with same | same
    · exact .inl ⟨alert, same ▸ there, rfl, rfl, fun h => h⟩
    · rw [same] at there
      exact .inl ⟨alert, (Option.filter_eq_some_iff.mp there).1, rfl, rfl, fun h => h⟩
  · rcases s.get?_makeRoom id with same | same
    · rw [same, there]
    · rw [same]
      exact Option.filter_eq_some_iff.mpr ⟨there, opened⟩

theorem Changes.already {alert : Alert} (h : s.Changes (.opened alert) False s')
    (there : s'.Holds alert.id) (ok : Prop) : s.Changes (.opened alert) ok s' := by
  refine ⟨h.records, h.keeps, fun _ id opens => ?_,
    fun _ id closes => absurd closes (by simp [Event.closing?])⟩
  obtain rfl := Option.some.inj opens
  exact there

theorem Changes.insert {alert : Alert} (h : s.Changes (.opened alert) False s')
    (fresh : ¬ s'.Holds alert.id) (ok : Prop) : s.Changes (.opened alert) ok (s'.insert alert) := by
  refine ⟨fun {id record} there => ?_, fun {id record} there opened other => ?_, fun _ id opens => ?_,
    fun _ id closes => absurd closes (by simp [Event.closing?])⟩
  · rw [get?_insert] at there
    split at there
    · next same =>
      obtain rfl := Option.some.inj there
      exact .inr ⟨rfl, same⟩
    · exact h.records there
  · have kept := h.keeps there opened other
    have ne : alert.id ≠ id := by
      rintro rfl
      exact fresh ⟨record, kept⟩
    rw [get?_insert, if_neg ne]
    exact kept
  · obtain rfl := Option.some.inj opens
    exact ⟨alert, by rw [get?_insert, if_pos rfl]⟩

theorem changes_create (s : AlertStore) (alert : Alert) :
    s.Changes (.opened alert) (∃ id, (s.create alert).2 = .ok id) (s.create alert).1 := by
  have room := s.changes_makeRoom (.opened alert)
  cases available : s.unavailable with
  | true =>
    rw [create_of_unavailable available]
    exact .refl _ (by simp) s
  | false =>
    obtain ⟨there, made⟩ | ⟨-, -, made⟩ | ⟨absent, -, made⟩ := create_cases available alert
    · rw [made]
      exact room.already there _
    · rw [made]
      exact room.imp (by simp)
    · rw [made]
      exact room.insert absent _

theorem get?_close (s : AlertStore) (id id' : AlertId) (alert : Alert) :
    get? { s with alerts := s.alerts.insert id alert } id' =
      if id = id' then some alert else s.get? id' := by
  simp [get?, Std.TreeMap.getElem?_insert]

theorem changes_close {alert : Alert} (here : s.get? id = some alert) (rule : RuleId) (time : Timestamp)
    (reason : ResolveReason) (ok : Prop) : s.Changes (.resolved id rule time reason) ok
      { s with alerts := s.alerts.insert id (alert.resolve time) } := by
  have shut := alert.isOpen_resolve time
  refine ⟨fun {id' record} there => ?_, fun {id' record} there _ other => ?_,
    fun _ id' opens => absurd opens (by simp [Event.opening?]), fun _ id' closes still => ?_⟩
  · rw [get?_close] at there
    split at there
    · next same =>
      obtain rfl := Option.some.inj there
      refine .inl ⟨alert, same ▸ here, rfl, rfl, fun opened => ?_⟩
      rw [shut] at opened
      exact absurd opened Bool.false_ne_true
    · exact .inl ⟨record, there, rfl, rfl, fun h => h⟩
  · have ne : id ≠ id' := fun same => other (congrArg some same)
    rw [get?_close, if_neg ne]
    exact there
  · obtain rfl := Option.some.inj closes
    obtain ⟨record, there, opened⟩ := still
    rw [get?_close, if_pos rfl] at there
    obtain rfl := Option.some.inj there
    rw [shut] at opened
    exact absurd opened Bool.false_ne_true

theorem changes_resolve (s : AlertStore) (id : AlertId) (rule : RuleId) (time : Timestamp)
    (reason : ResolveReason) : s.Changes (.resolved id rule time reason)
      ((s.resolve id time).2 = .ok ()) (s.resolve id time).1 := by
  obtain ⟨before, here, closed⟩ | ⟨e, refused⟩ := s.resolve_cases id time
  · rw [closed]
    exact changes_close here rule time reason _
  · rw [refused]
    exact .refl _ (by simp) s

/-! ### Events that arrive -/

/-- The records once an event has arrived: the alert that it opens is stored unless it is already, and the
alert that it closes is closed. -/
def receive (s : AlertStore) : Event → AlertStore
  | .opened alert => if s.alerts.contains alert.id then s else s.insert alert
  | .resolved id _ time _ =>
    match s.get? id with
    | some alert => { s with alerts := s.alerts.insert id (alert.resolve time) }
    | none => s

def receiveAll (s : AlertStore) (events : List Event) : AlertStore :=
  events.foldl receive s

/-- While the store is available and has room, a call leaves the records that its event leaves. -/
theorem receive_eq_deliver (sink : Sink) (event : Event) (available : sink.store.unavailable = false)
    (room : sink.store.size < highWater) :
    (sink.deliver .pass event).1.store = sink.store.receive event := by
  have same : sink.store.makeRoom = sink.store := if_neg (Nat.not_le_of_lt room)
  cases event with
  | opened alert =>
    change (sink.store.create alert).1 = sink.store.receive (.opened alert)
    have below : sink.store.size < capacity := Nat.lt_of_lt_of_le room (by decide)
    obtain ⟨there, made⟩ | ⟨-, full, -⟩ | ⟨absent, -, made⟩ := create_cases available alert
    · rw [same] at there made
      rw [made, receive, if_pos ((contains_iff _ _).mpr there)]
    · exact absurd (same ▸ full) (Nat.not_le_of_lt below)
    · rw [same] at absent made
      rw [made, receive, if_neg fun there => absent ((contains_iff _ _).mp there)]
  | resolved id rule time reason =>
    change (sink.store.resolve id time).1 = sink.store.receive (.resolved id rule time reason)
    rw [receive]
    split
    · next alert there => rw [resolve_of_stored available there]
    · next gone => rw [resolve_of_absent available gone]

theorem changes_receive (s : AlertStore) (event : Event) : s.Changes event True (s.receive event) := by
  cases event with
  | opened alert =>
      have same : s.Changes (.opened alert) False s := .refl _ (fun h => h) s
      rw [receive]
      split
      · next there => exact same.already ((contains_iff _ _).mp there) _
      · next absent => exact same.insert (fun there => absent ((contains_iff _ _).mpr there)) _
  | resolved id rule time reason =>
      rw [receive]
      split
      · next alert here => exact changes_close here rule time reason _
      · next absent =>
        refine ⟨fun there => .inl ⟨_, there, rfl, rfl, fun h => h⟩, fun there _ _ => there,
          fun _ id' opens => absurd opens (by simp [Event.opening?]), fun _ id' closes still => ?_⟩
        obtain rfl := Option.some.inj closes
        obtain ⟨record, there, -⟩ := still
        exact absurd (absent.symm.trans there) (by simp)

/-- Of events that alternate some arrive: what is open then was opened before or by them, and not closed by
them. -/
theorem holdsOpen_receiveAll {produced events : List Event} {now : Option AlertId}
    (alternates : Alternates none produced now) (once : (Event.opens produced).Nodup)
    (fresh : ∀ alert, .opened alert ∈ produced → alert.isOpen = true) (inOrder : events.Sublist produced)
    (live : ∀ {id}, id ∈ Event.opens events → s.Holds id → s.HoldsOpen id) :
    (s.receiveAll events).HoldsOpen id ↔
      (s.HoldsOpen id ∨ id ∈ Event.opens events) ∧ id ∉ Event.closes events := by
  -- By the events from the front: once the first has arrived, `live` holds for the others.
  induction events generalizing s with
  | nil => simp [receiveAll]
  | cons event rest ih =>
      have changes := s.changes_receive event
      have shut {id : AlertId} (mem : id ∈ Event.opens (event :: rest)) : event.closing? ≠ some id :=
        fun closes => alternates.not_opened_after once inOrder closes mem
      have new (alert : Alert) (made : event = .opened alert) : alert.isOpen = true :=
        fresh alert (inOrder.subset (made ▸ List.mem_cons_self))
      have live' {id : AlertId} (mem : id ∈ Event.opens rest) (there : (s.receive event).Holds id) :
          (s.receive event).HoldsOpen id := by
        have mem' : id ∈ Event.opens (event :: rest) := Event.mem_opens_cons.mpr (.inr mem)
        exact changes.live (live mem') (shut mem') new there
      have rest' := ih ((List.sublist_cons_self ..).trans inOrder) live'
      rw [receiveAll, List.foldl_cons, ← receiveAll, rest', Event.mem_opens_cons, Event.mem_closes_cons]
      by_cases closes : event.closing? = some id
      · have gone := changes.closed trivial id closes
        have later : id ∉ Event.opens rest := fun mem => shut (Event.mem_opens_cons.mpr (.inr mem)) closes
        simp [closes, gone, later]
      · have now : (s.receive event).HoldsOpen id ↔ s.HoldsOpen id ∨ event.opening? = some id := by
          refine ⟨changes.holdsOpen, fun was => ?_⟩
          rcases was with there | opens
          · exact changes.keepsOpen there closes
          · exact changes.live (live (Event.mem_opens_cons.mpr (.inl opens))) closes new
              (changes.created trivial id opens)
        simp only [now, closes, false_or, or_assoc]

theorem named_receiveAll {P : AlertId → RuleId → Prop} {events : List Event}
    (before : ∀ {id record}, s.get? id = some record → P id record.ruleId)
    (made : ∀ alert, .opened alert ∈ events → P alert.id alert.ruleId) {record : Alert}
    (there : (s.receiveAll events).get? id = some record) : P id record.ruleId := by
  induction events generalizing s with
  | nil => exact before there
  | cons event rest ih =>
      refine ih (fun {id record} get => ?_) (fun alert mem => made alert (List.mem_cons_of_mem _ mem)) there
      rcases (s.changes_receive event).records get with ⟨was, here, ruleId, -⟩ | ⟨rfl, rfl⟩
      · exact ruleId ▸ before here
      · exact made record List.mem_cons_self

/-- At most one record is counted if no two of them are. -/
theorem countP_le_one {p : Alert → Bool} (only : ∀ {id id' record record'}, s.get? id = some record →
    s.get? id' = some record' → p record = true → p record' = true → id = id') :
    s.alerts.values.countP p ≤ 1 := by
  have nodup : ((s.alerts.toList.filter fun entry => p entry.2).map (·.1)).Nodup := by
    refine List.Nodup.sublist (List.filter_sublist.map _) ?_
    rw [Std.TreeMap.map_fst_toList_eq_keys]
    exact Std.TreeMap.nodup_keys
  have counted : s.alerts.values.countP p = (s.alerts.toList.filter fun entry => p entry.2).length := by
    rw [values_eq_toList, List.countP_map, List.countP_eq_length_filter]
    rfl
  rw [counted]
  cases all : s.alerts.toList.filter fun entry => p entry.2 with
  | nil => exact Nat.zero_le 1
  | cons first rest =>
      cases rest with
      | nil => exact Nat.le_refl 1
      | cons second rest =>
          have entry {e : AlertId × Alert} (mem : e ∈ first :: second :: rest) :
              s.get? e.1 = some e.2 ∧ p e.2 = true := by
            obtain ⟨there, counts⟩ := List.mem_filter.mp (all ▸ mem)
            exact ⟨Std.TreeMap.mem_toList_iff_getElem?_eq_some.mp there, counts⟩
          obtain ⟨there, counts⟩ := entry List.mem_cons_self
          obtain ⟨there', counts'⟩ := entry (List.mem_cons_of_mem _ List.mem_cons_self)
          have same := only there there' counts counts'
          rw [all] at nodup
          simp [same] at nodup

end AlertStore

/-- Whatever a call to the sink is made to do. -/
theorem Sink.changes_deliver (s : Sink) (deed : Deed) (event : Event) :
    s.store.Changes event ((s.deliver deed event).2 = .ok ()) (s.deliver deed event).1.store := by
  cases event with
  | opened alert =>
      have created := s.store.changes_create alert
      cases deed with
      | fail error => exact .refl _ (by simp [deliver, perform, Except.map]) _
      | missing => exact .refl _ (by simp [deliver, perform, Except.map]) _
      | pass =>
          simp only [deliver, perform]
          generalize s.store.create alert = result at created
          obtain ⟨store, answer⟩ := result
          cases answer with
          | error error => exact created.imp (by simp [Except.map])
          | ok id => exact created.imp fun _ => ⟨id, rfl⟩
      | rename name =>
          simp only [deliver, perform]
          generalize s.store.create alert = result at created
          obtain ⟨store, answer⟩ := result
          cases answer with
          | error error => exact created.imp (by simp [Except.map])
          | ok id => exact created.imp fun _ => ⟨id, rfl⟩
  | resolved id rule time reason =>
      have resolved := s.store.changes_resolve id rule time reason
      cases deed with
      | fail error => exact .refl _ (by simp [deliver, perform]) _
      | missing => exact .refl _ (by simp [deliver, perform]) _
      | pass => exact resolved
      | rename name =>
          simp only [deliver, perform]
          generalize s.store.resolve id time = result at resolved
          obtain ⟨store, answer⟩ := result
          cases answer with
          | error error => exact resolved.imp (by simp [Except.map])
          | ok u => exact resolved.imp fun _ => rfl

end ThresholdAlerts
