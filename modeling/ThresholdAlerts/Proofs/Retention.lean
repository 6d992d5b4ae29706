import ThresholdAlerts.Proofs.Acceptance
import ThresholdAlerts.Proofs.Restart
/-! How long the store keeps a record. Main statements: whatever is asked of it, the store loses no open record and
never holds more than it has room for; creating and closing again what is closed has no effect, until a record is
created while the store is nearly full. -/
namespace ThresholdAlerts.AlertStore

/-- What can be asked of the store, and the switch that makes it fail. -/
inductive Call where
  | create (alert : Alert)
  | resolve (id : AlertId) (time : Timestamp)
  | setUnavailable (unavailable : Bool)
deriving DecidableEq, Repr

/-- The store after a call, and whether the call did what it is to do. -/
def call (s : AlertStore) : Call → AlertStore × Except SinkError Unit
  | .create alert => ((s.create alert).1, (s.create alert).2.map fun _ => ())
  | .resolve id time => s.resolve id time
  | .setUnavailable unavailable => ({ s with unavailable }, .ok ())

abbrev Log := List (Call × Except SinkError Unit)

/-- The store after calls one after the other, and how each was answered. -/
def serve (s : AlertStore) : List Call → AlertStore × Log
  | [] => (s, [])
  | c :: rest => (((s.call c).1.serve rest).1, (c, (s.call c).2) :: ((s.call c).1.serve rest).2)

def created? (id : AlertId) : Call × Except SinkError Unit → Option Alert
  | (.create alert, .ok _) => if alert.id = id then some alert else none
  | _ => none

def firstCreated? (id : AlertId) (log : Log) : Option Alert :=
  log.findSome? (created? id)

/-- No call closed the alert. -/
def Unresolved (id : AlertId) (log : Log) : Prop :=
  ∀ time, (.resolve id time, .ok ()) ∉ log

def Spares (s : AlertStore) : Call → Prop
  | .create _ => s.unavailable = true ∨ s.size < highWater
  | _ => True

/-- None of some calls, one after the other, makes the store let go of closed records. -/
def Spared (s : AlertStore) : List Call → Prop
  | [] => True
  | c :: rest => s.Spares c ∧ (s.call c).1.Spared rest

variable {s : AlertStore} {log : Log} {id : AlertId} {alert shut : Alert} {c : Call}

/-! ### Room -/

theorem makeRoom_of_lt (few : s.size < highWater) : s.makeRoom = s :=
  if_neg (Nat.not_le_of_lt few)

theorem get?_makeRoom_of_le (many : highWater ≤ s.size) (id : AlertId) :
    s.makeRoom.get? id = (s.get? id).filter Alert.isOpen := by
  rw [makeRoom, if_pos many]
  exact Std.TreeMap.getElem?_filter'

theorem size_makeRoom_le (s : AlertStore) : s.makeRoom.size ≤ s.size := by
  rw [makeRoom]
  split
  · exact Std.TreeMap.size_filter_le_size
  · exact Nat.le_refl _

theorem holds_of_makeRoom (held : s.makeRoom.Holds id) : s.Holds id := by
  obtain ⟨record, there⟩ := held
  rcases s.get?_makeRoom id with same | same
  · exact ⟨record, same ▸ there⟩
  · rw [same] at there
    exact ⟨record, (Option.filter_eq_some_iff.mp there).1⟩

theorem length_openAlerts (s : AlertStore) :
    s.openAlerts.length = (s.alerts.filter fun _ alert => alert.isOpen).size := by
  have kept : (s.alerts.filter fun _ alert => alert.isOpen).toList = s.alerts.toList.filter fun e => e.2.isOpen :=
    Std.TreeMap.toList_filter
  have counted := countP_openAlerts s fun _ => true
  rw [List.countP_true, values_eq_toList, List.countP_map, List.countP_eq_length_filter] at counted
  rw [← Std.TreeMap.length_toList, kept]
  exact counted

theorem length_openAlerts_le (s : AlertStore) : s.openAlerts.length ≤ s.size := by
  rw [length_openAlerts]
  exact Std.TreeMap.size_filter_le_size

theorem size_makeRoom_of_le (many : highWater ≤ s.size) : s.makeRoom.size = s.openAlerts.length := by
  rw [length_openAlerts, makeRoom, if_pos many]
  rfl

theorem highWater_le_capacity : highWater ≤ capacity := by
  decide

theorem get?_makeRoom_of_full (few : s.size ≤ capacity) (full : capacity ≤ s.makeRoom.size) (id : AlertId) :
    s.makeRoom.get? id = s.get? id := by
  have many : highWater ≤ s.size := Nat.le_trans highWater_le_capacity (Nat.le_trans full s.size_makeRoom_le)
  have same : (s.alerts.filter fun _ alert => alert.isOpen).size = s.alerts.size := by
    rw [← length_openAlerts, ← size_makeRoom_of_le many]
    exact Nat.le_antisymm s.size_makeRoom_le (Nat.le_trans few full)
  have all := Std.TreeMap.size_filter_eq_size_iff.mp same
  rw [get?_makeRoom_of_le many, get?, Std.TreeMap.get?_eq_getElem?]
  cases there : s.alerts[id]? with
  | none => rfl
  | some record =>
    obtain ⟨held, rfl⟩ := Std.TreeMap.getElem?_eq_some_iff.mp there
    exact Option.filter_eq_some_iff.mpr ⟨rfl, all id held⟩

/-! ### What a call does -/

theorem create_of_absent (available : s.unavailable = false) (few : s.size < highWater)
    (absent : ¬ s.Holds alert.id) : s.create alert = (s.insert alert, .ok alert.id) := by
  have same := makeRoom_of_lt few
  obtain ⟨held, -⟩ | ⟨-, full, -⟩ | ⟨-, -, made⟩ := create_cases available alert
  · exact absurd (same ▸ held) absent
  · rw [same] at full
    exact absurd (Nat.lt_of_lt_of_le few highWater_le_capacity) (Nat.not_lt_of_le full)
  · rw [made, same]

/-- What is there after a record was taken in was there before, or is the one that was taken in. -/
theorem holds_create (held : (s.create alert).1.Holds id) :
    s.Holds id ∨ alert.id = id ∧ (s.create alert).2 = .ok alert.id := by
  cases available : s.unavailable with
  | true =>
    rw [create_of_unavailable available] at held
    exact .inl held
  | false =>
    obtain ⟨-, made⟩ | ⟨-, -, made⟩ | ⟨-, -, made⟩ := create_cases available alert
    · rw [made] at held
      exact .inl (holds_of_makeRoom held)
    · rw [made] at held
      exact .inl (holds_of_makeRoom held)
    · rw [made] at held ⊢
      obtain ⟨record, there⟩ := held
      rw [get?_insert] at there
      split at there
      · next same => exact .inr ⟨same, rfl⟩
      · exact .inl (holds_of_makeRoom ⟨record, there⟩)

theorem get?_create_of_absent (absent : ¬ s.Holds alert.id) (ok : ∃ id, (s.create alert).2 = .ok id) :
    (s.create alert).1.get? alert.id = some alert := by
  obtain ⟨id, ok⟩ := ok
  cases available : s.unavailable with
  | true =>
    rw [create_of_unavailable available] at ok
    exact absurd ok (by simp)
  | false =>
    obtain ⟨held, -⟩ | ⟨-, -, made⟩ | ⟨-, -, made⟩ := create_cases available alert
    · exact absurd (holds_of_makeRoom held) absent
    · rw [made] at ok
      exact absurd ok (by simp)
    · rw [made, get?_insert, if_pos rfl]

theorem available_create (s : AlertStore) (alert : Alert) : (s.create alert).1.unavailable = s.unavailable :=
  s.available_take (.opened alert)

theorem size_insert_of_absent (absent : ¬ s.Holds alert.id) : (s.insert alert).size = s.size + 1 := by
  rw [size, insert, Std.TreeMap.size_insert, if_neg fun there => absent ((contains_iff _ _).mp there)]
  rfl

theorem size_call (few : s.size ≤ capacity) (c : Call) : (s.call c).1.size ≤ capacity := by
  cases c with
  | create alert =>
    have room := Nat.le_trans s.size_makeRoom_le few
    change (s.create alert).1.size ≤ capacity
    cases available : s.unavailable with
    | true => rwa [create_of_unavailable available]
    | false =>
      obtain ⟨-, made⟩ | ⟨-, -, made⟩ | ⟨absent, below, made⟩ := create_cases available alert
      · rwa [made]
      · rwa [made]
      · rw [made, size_insert_of_absent absent]
        exact below
  | resolve id time =>
    change (s.resolve id time).1.size ≤ capacity
    obtain ⟨before, there, shut⟩ | ⟨e, refused⟩ := s.resolve_cases id time
    · have held : s.alerts.contains id = true := (contains_iff s id).mpr ⟨before, there⟩
      rw [shut, size, Std.TreeMap.size_insert, if_pos held]
      exact few
    · rwa [refused]
  | setUnavailable unavailable => exact few

theorem size_serve (few : s.size ≤ capacity) (calls : List Call) : (s.serve calls).1.size ≤ capacity := by
  induction calls generalizing s with
  | nil => exact few
  | cons c rest ih => exact ih (size_call few c)

theorem keyed_call (keyed : s.Keyed) (c : Call) : (s.call c).1.Keyed := by
  cases c with
  | create alert => exact keyed.changes (s.changes_create alert)
  | resolve id time => exact keyed.changes (s.changes_resolve id "" time .recovered)
  | setUnavailable unavailable => exact keyed

/-- A call that fails leaves every record as it is. -/
theorem get?_call_of_error {e : SinkError} (few : s.size ≤ capacity) (failed : (s.call c).2 = .error e)
    (id : AlertId) : (s.call c).1.get? id = s.get? id := by
  cases c with
  | create alert =>
    change (s.create alert).1.get? id = s.get? id
    have failed : (s.create alert).2.map (fun _ => ()) = .error e := failed
    cases available : s.unavailable with
    | true => rw [create_of_unavailable available]
    | false =>
      obtain ⟨-, made⟩ | ⟨-, full, made⟩ | ⟨-, -, made⟩ := create_cases available alert
      · rw [made] at failed
        exact absurd failed (by simp [Except.map])
      · rw [made]
        exact get?_makeRoom_of_full few full id
      · rw [made] at failed
        exact absurd failed (by simp [Except.map])
  | resolve id' time =>
    change (s.resolve id' time).1.get? id = s.get? id
    have failed : (s.resolve id' time).2 = .error e := failed
    obtain ⟨before, -, shut⟩ | ⟨e', refused⟩ := s.resolve_cases id' time
    · rw [shut] at failed
      exact absurd failed (by simp)
    · rw [refused]
  | setUnavailable unavailable => rfl

/-- A record is refused just if the store is full of open ones and it is none of them. -/
theorem create_rejected_iff (few : s.size ≤ capacity) (keyed : s.Keyed) (alert : Alert) (text : String) :
    (s.create alert).2 = .error (.rejected text) ↔ text = "alert store full (10000 open alerts)" ∧
      s.unavailable = false ∧ s.openAlerts.length = capacity ∧ ∀ other ∈ s.openAlerts, other.id ≠ alert.id := by
  -- If as many are open, making room leaves just these.
  have room (full : s.openAlerts.length = capacity) : highWater ≤ s.size ∧ s.makeRoom.size = capacity := by
    have many : highWater ≤ s.size := Nat.le_trans highWater_le_capacity (full ▸ s.length_openAlerts_le)
    exact ⟨many, (size_makeRoom_of_le many).trans full⟩
  cases available : s.unavailable with
  | true =>
    rw [create_of_unavailable available]
    simp
  | false =>
    obtain ⟨⟨record, there⟩, made⟩ | ⟨absent, full, made⟩ | ⟨-, below, made⟩ := create_cases available alert
    · rw [made]
      refine ⟨fun failed => absurd failed (by simp), fun ⟨_, _, full, apart⟩ => ?_⟩
      rw [get?_makeRoom_of_le (room full).1, Option.filter_eq_some_iff] at there
      exact absurd (keyed there.1) (apart record (mem_openAlerts.mpr ⟨⟨_, there.1⟩, there.2⟩))
    · have many : highWater ≤ s.size := Nat.le_trans highWater_le_capacity (Nat.le_trans full s.size_makeRoom_le)
      have exactly : s.makeRoom.size = capacity := Nat.le_antisymm (Nat.le_trans s.size_makeRoom_le few) full
      have apart : ∀ other ∈ s.openAlerts, other.id ≠ alert.id := by
        intro other mem same
        obtain ⟨there, isOpen⟩ := keyed.mem_openAlerts.mp mem
        refine absent ⟨other, ?_⟩
        rw [get?_makeRoom_of_le many, ← same, there]
        exact Option.filter_eq_some_iff.mpr ⟨rfl, isOpen⟩
      rw [made, exactly]
      constructor
      · intro refused
        have same : "alert store full (" ++ toString capacity ++ " open alerts)" = text := by
          simpa using refused
        exact ⟨same.symm, rfl, (size_makeRoom_of_le many).symm.trans exactly, apart⟩
      · rintro ⟨rfl, -⟩
        rfl
    · rw [made]
      refine ⟨fun failed => absurd failed (by simp), fun ⟨_, _, full, _⟩ => ?_⟩
      exact absurd (room full).2 (Nat.ne_of_lt below)

/-! ### Open records are not lost -/

/-- The records of a store, in terms of what it was asked. -/
structure Sound (log : Log) (s : AlertStore) : Prop where
  keyed : s.Keyed
  few : s.size ≤ capacity
  made : ∀ {id}, s.Holds id → ∃ alert, firstCreated? id log = some alert
  kept : ∀ {id alert}, firstCreated? id log = some alert → alert.isOpen = true → Unresolved id log →
    s.get? id = some alert

theorem sound_empty : Sound [] empty :=
  ⟨keyed_empty, by decide, fun ⟨_, there⟩ => absurd there (by simp [empty, get?]),
    fun there => absurd there (by simp [firstCreated?])⟩

theorem firstCreated?_concat (id : AlertId) (log : Log) (last : Call × Except SinkError Unit) :
    firstCreated? id (log ++ [last]) = (firstCreated? id log).or (created? id last) := by
  simp [firstCreated?, List.findSome?_append]

theorem created?_create {answer : Except SinkError AlertId} {first : Alert} :
    created? id (.create alert, answer.map fun _ => ()) = some first ↔
      alert = first ∧ alert.id = id ∧ ∃ name, answer = .ok name := by
  cases answer with
  | error e => simp [created?, Except.map]
  | ok name => simp [created?, Except.map, and_comm]

theorem Unresolved.earlier {last : Call × Except SinkError Unit} (unresolved : Unresolved id (log ++ [last])) :
    Unresolved id log :=
  fun time mem => unresolved time (List.mem_append_left _ mem)

theorem Sound.fresh (sound : Sound log s) (new : firstCreated? id log = none) : ¬ s.Holds id := by
  intro held
  obtain ⟨other, there⟩ := sound.made held
  exact absurd (new.symm.trans there) (by simp)

theorem Sound.create (sound : Sound log s) (alert : Alert) :
    Sound (log ++ [(.create alert, (s.call (.create alert)).2)]) (s.call (.create alert)).1 := by
  have changes := s.changes_create alert
  refine ⟨keyed_call sound.keyed _, size_call sound.few _, fun {id} held => ?_,
    fun {id first} made isOpen unresolved => ?_⟩
  · rw [firstCreated?_concat]
    rcases holds_create held with before | ⟨rfl, ok⟩
    · obtain ⟨other, there⟩ := sound.made before
      exact ⟨other, by rw [there, Option.some_or]⟩
    · have last : created? alert.id (.create alert, (s.call (.create alert)).2) = some alert :=
        created?_create.mpr ⟨rfl, rfl, _, ok⟩
      rw [last]
      cases firstCreated? alert.id log with
      | none => exact ⟨alert, rfl⟩
      | some other => exact ⟨other, rfl⟩
  · rw [firstCreated?_concat] at made
    cases before : firstCreated? id log with
    | some earlier =>
      obtain rfl : earlier = first := by simpa [before] using made
      exact changes.keeps (sound.kept before isOpen unresolved.earlier) isOpen (by simp [Event.closing?])
    | none =>
      rw [before, Option.none_or] at made
      obtain ⟨rfl, rfl, ok⟩ := created?_create.mp made
      exact get?_create_of_absent (sound.fresh before) ok

theorem Sound.resolve (sound : Sound log s) (id : AlertId) (time : Timestamp) :
    Sound (log ++ [(.resolve id time, (s.call (.resolve id time)).2)]) (s.call (.resolve id time)).1 := by
  have changes := s.changes_resolve id "" time .recovered
  have same (id' : AlertId) (answer : Except SinkError Unit) :
      firstCreated? id' (log ++ [(.resolve id time, answer)]) = firstCreated? id' log := by
    rw [firstCreated?_concat, show created? id' (.resolve id time, answer) = none from rfl, Option.or_none]
  refine ⟨keyed_call sound.keyed _, size_call sound.few _, fun {id'} held => ?_,
    fun {id' first} made isOpen unresolved => ?_⟩
  · rw [same]
    exact sound.made ((changes.holds held).resolve_right (by simp [Event.opening?]))
  · rw [same] at made
    have kept := sound.kept made isOpen unresolved.earlier
    rcases s.resolve_cases id time with ⟨before, -, shut⟩ | ⟨e, refused⟩
    · refine changes.keeps kept isOpen fun closes => ?_
      obtain rfl := Option.some.inj closes
      exact unresolved time (List.mem_append_right _ (List.mem_singleton.mpr (by rw [call, shut])))
    · change (s.resolve id time).1.get? id' = some first
      rw [refused]
      exact kept

theorem Sound.call (sound : Sound log s) (c : Call) : Sound (log ++ [(c, (s.call c).2)]) (s.call c).1 := by
  cases c with
  | create alert => exact sound.create alert
  | resolve id time => exact sound.resolve id time
  | setUnavailable unavailable =>
    have same (id : AlertId) : firstCreated? id (log ++ [(.setUnavailable unavailable, .ok ())]) =
        firstCreated? id log := by
      rw [firstCreated?_concat, show created? id (.setUnavailable unavailable, .ok ()) = none from rfl, Option.or_none]
    exact ⟨sound.keyed, sound.few, fun held => (same _).symm ▸ sound.made held,
      fun made isOpen unresolved => sound.kept ((same _).symm.trans made) isOpen unresolved.earlier⟩

theorem Sound.serve (sound : Sound log s) (calls : List Call) : Sound (log ++ (s.serve calls).2) (s.serve calls).1 := by
  induction calls generalizing log s with
  | nil => simpa [AlertStore.serve] using sound
  | cons c rest ih =>
    have later := ih (sound.call c)
    rwa [List.append_assoc, List.singleton_append] at later

/-- Nothing open is lost. Whatever calls are made on a store that is empty at first, it holds at most 10,000 records;
an alert that was open when it was first created and that no call closed is there as it was given; a record is refused
just if the store can be reached and 10,000 others are open; and a call that fails leaves every record as it is. -/
theorem open_records_kept (calls : List Call) :
    let s := (empty.serve calls).1
    let log := (empty.serve calls).2
    s.size ≤ 10000 ∧
      (∀ {id alert}, firstCreated? id log = some alert → alert.isOpen = true → Unresolved id log →
        s.get? id = some alert) ∧
      (∀ alert text, (s.create alert).2 = .error (.rejected text) ↔
        text = "alert store full (10000 open alerts)" ∧ s.unavailable = false ∧ s.openAlerts.length = 10000 ∧
          ∀ other ∈ s.openAlerts, other.id ≠ alert.id) ∧
      ∀ c e, (s.call c).2 = .error e → ∀ id, (s.call c).1.get? id = s.get? id := by
  intro s log
  have sound : Sound log s := sound_empty.serve calls
  exact ⟨sound.few, sound.kept, create_rejected_iff sound.few sound.keyed, fun c e => get?_call_of_error sound.few⟩

theorem open_records_kept_through_outage :
    let alert (id : AlertId) : Alert := .ofRule id .highLoad 95 default
    let calls : List Call := [.create (alert "x"), .create (alert "y"), .setUnavailable true, .resolve "x" default,
      .setUnavailable false, .resolve "y" default, .create { alert "x" with message := "" }]
    (empty.serve calls).1.get? "x" = some (alert "x") := by
  intro alert calls
  obtain ⟨-, kept, -⟩ := open_records_kept calls
  have log : (empty.serve calls).2 =
      [(.create (alert "x"), .ok ()), (.create (alert "y"), .ok ()), (.setUnavailable true, .ok ()),
        (.resolve "x" default, .error (.unavailable "memory alert store marked unavailable")),
        (.setUnavailable false, .ok ()), (.resolve "y" default, .ok ()),
        (.create { alert "x" with message := "" }, .ok ())] := by decide +kernel
  refine kept ?_ rfl fun time mem => ?_
  · rw [log]
    rfl
  · rw [log] at mem
    simp at mem

/-- An alert that is closed when it is created is not open, though no call closed it. -/
theorem created_closed :
    let shut : Alert := (Alert.ofRule "x" .highLoad 95 default).resolve default
    let s := (empty.serve [.create shut]).1
    let log := (empty.serve [.create shut]).2
    log = [(.create shut, .ok ())] ∧ firstCreated? "x" log = some shut ∧ Unresolved "x" log ∧ ¬ s.HoldsOpen "x" := by
  intro shut s log
  have answered : log = [(.create shut, .ok ())] := rfl
  have stored : s.get? "x" = some shut := by decide +kernel
  refine ⟨answered, rfl, fun time mem => ?_, fun ⟨alert, there, isOpen⟩ => ?_⟩
  · rw [answered] at mem
    simp at mem
  · obtain rfl := Option.some.inj (stored.symm.trans there)
    exact absurd isOpen (by decide)

/-! ### Closed records -/

theorem resolve_again (available : s.unavailable = false) (there : s.get? id = some shut)
    (closed : shut.isOpen = false) (time : Timestamp) :
    (s.resolve id time).2 = .ok () ∧ ∀ id', (s.resolve id time).1.get? id' = s.get? id' := by
  rw [resolve_of_stored available there]
  refine ⟨rfl, fun id' => ?_⟩
  rw [get?_close, Alert.resolve_of_closed closed]
  split
  · next same => rw [← same, there]
  · rfl

/-- Creating again what is closed changes nothing unless the store is nearly full. If it is, the record goes first and
is then taken in as new. -/
theorem create_again (few : s.size ≤ capacity) (available : s.unavailable = false) (alert : Alert)
    (there : s.get? alert.id = some shut) (closed : shut.isOpen = false) :
    (s.create alert).2 = .ok alert.id ∧ (s.size < highWater → (s.create alert).1 = s) ∧
      (highWater ≤ s.size → (s.create alert).1.get? alert.id = some alert) := by
  cases Nat.lt_or_ge s.size highWater with
  | inl below =>
    have same := makeRoom_of_lt below
    obtain ⟨-, made⟩ | ⟨absent, -⟩ | ⟨absent, -⟩ := create_cases available alert
    · rw [made, same]
      exact ⟨rfl, fun _ => rfl, fun many => absurd many (Nat.not_le_of_lt below)⟩
    · exact absurd ⟨shut, same.symm ▸ there⟩ absent
    · exact absurd ⟨shut, same.symm ▸ there⟩ absent
  | inr many =>
    have gone : s.makeRoom.get? alert.id = none := by
      rw [get?_makeRoom_of_le many, there, Option.filter_eq_none_iff]
      simp [closed]
    obtain ⟨⟨other, held⟩, -⟩ | ⟨-, full, -⟩ | ⟨-, -, made⟩ := create_cases available alert
    · exact absurd (gone.symm.trans held) (by simp)
    · -- All would be open, but this one is not.
      rw [get?_makeRoom_of_full few full, there] at gone
      exact absurd gone (by simp)
    · rw [made]
      refine ⟨rfl, fun below => absurd many (Nat.not_le_of_lt below), fun _ => ?_⟩
      rw [get?_insert, if_pos rfl]

/-- A record that is created while the store is nearly full makes it let go of every closed one. -/
theorem closed_let_go (available : s.unavailable = false) (many : highWater ≤ s.size)
    (there : s.get? id = some shut) (closed : shut.isOpen = false) (alert : Alert) (other : alert.id ≠ id) :
    (s.create alert).1.get? id = none := by
  have gone : s.makeRoom.get? id = none := by
    rw [get?_makeRoom_of_le many, there, Option.filter_eq_none_iff]
    simp [closed]
  obtain ⟨-, made⟩ | ⟨-, -, made⟩ | ⟨-, -, made⟩ := create_cases available alert
  · rw [made, gone]
  · rw [made, gone]
  · rw [made, get?_insert, if_neg other, gone]

theorem Spares.get?_call (spares : s.Spares c) (there : s.get? id = some shut) (closed : shut.isOpen = false) :
    (s.call c).1.get? id = some shut := by
  cases c with
  | create alert =>
    change (s.create alert).1.get? id = some shut
    cases available : s.unavailable with
    | true => rw [create_of_unavailable available, there]
    | false =>
      have few : s.size < highWater := spares.resolve_left (by simp [available])
      obtain ⟨-, made⟩ | ⟨-, -, made⟩ | ⟨absent, -, made⟩ := create_cases available alert
      all_goals rw [made]
      all_goals rw [makeRoom_of_lt few] at *
      · exact there
      · exact there
      · have other : alert.id ≠ id := fun same => absent ⟨shut, same ▸ there⟩
        rw [get?_insert, if_neg other, there]
  | resolve id' time =>
    change (s.resolve id' time).1.get? id = some shut
    obtain ⟨before, here, closes⟩ | ⟨e, refused⟩ := s.resolve_cases id' time
    · rw [closes, get?_close]
      split
      · next same =>
        obtain rfl := Option.some.inj ((same ▸ here).symm.trans there)
        rw [Alert.resolve_of_closed closed]
      · exact there
    · rw [refused, there]
  | setUnavailable unavailable => exact there

theorem Spared.get?_serve {calls : List Call} (spared : s.Spared calls) (there : s.get? id = some shut)
    (closed : shut.isOpen = false) : (s.serve calls).1.get? id = some shut := by
  induction calls generalizing s with
  | nil => exact there
  | cons c rest ih => exact ih spared.2 (spared.1.get?_call there closed)

/-- Repeats have no effect. After any calls an alert is closed, and more calls follow. As long as none of them creates a
record while the store is nearly full, the record stays as it was closed and to close it again changes nothing. To
create it again changes nothing either while the store is not nearly full; otherwise it makes the alert open again. -/
theorem repeats_have_no_effect (earlier between : List Call) (alert : Alert) (time : Timestamp)
    (resolved : ((empty.serve earlier).1.resolve alert.id time).2 = .ok ())
    (spared : ((empty.serve earlier).1.resolve alert.id time).1.Spared between)
    (available : (((empty.serve earlier).1.resolve alert.id time).1.serve between).1.unavailable = false) :
    let s := (((empty.serve earlier).1.resolve alert.id time).1.serve between).1
    ∃ before, (empty.serve earlier).1.get? alert.id = some before ∧
      s.get? alert.id = some (before.resolve time) ∧
      (s.create alert).2 = .ok alert.id ∧ (s.size < highWater → (s.create alert).1 = s) ∧
      (highWater ≤ s.size → (s.create alert).1.get? alert.id = some alert) ∧
      ∀ later, (s.resolve alert.id later).2 = .ok () ∧
        ∀ id, (s.resolve alert.id later).1.get? id = s.get? id := by
  intro s
  obtain ⟨before, there, shuts⟩ | ⟨e, refused⟩ := (empty.serve earlier).1.resolve_cases alert.id time
  · have closed := before.isOpen_resolve time
    have shut : ((empty.serve earlier).1.resolve alert.id time).1.get? alert.id = some (before.resolve time) := by
      rw [shuts, get?_close, if_pos rfl]
    have few : s.size ≤ capacity :=
      size_serve (size_call (size_serve (by decide) earlier) (.resolve alert.id time)) between
    have kept : s.get? alert.id = some (before.resolve time) := spared.get?_serve shut closed
    obtain ⟨ok, same, reopened⟩ := create_again few available alert kept closed
    exact ⟨before, there, kept, ok, same, reopened, resolve_again available kept closed⟩
  · rw [refused] at resolved
    exact absurd resolved (by simp)

theorem repeats_have_no_effect_beside_others :
    let alert (id : AlertId) : Alert := .ofRule id .highLoad 95 default
    let s := (empty.serve [.create (alert "x"), .resolve "x" default, .create (alert "y"), .resolve "y" default]).1
    s.get? "x" = some ((alert "x").resolve default) ∧ (s.create (alert "x")).1 = s ∧
      ∀ later id, (s.resolve "x" later).1.get? id = s.get? id := by
  intro alert s
  obtain ⟨before, there, kept, -, same, -, again⟩ := repeats_have_no_effect [.create (alert "x")]
    [.create (alert "y"), .resolve "y" default] (alert "x") default (by decide +kernel)
    ⟨.inr (by decide +kernel), trivial, trivial⟩ (by decide +kernel)
  have first : (empty.serve [.create (alert "x")]).1.get? "x" = some (alert "x") := by decide +kernel
  obtain rfl := Option.some.inj (first.symm.trans there)
  exact ⟨kept, same (by decide +kernel), fun later => (again later).2⟩

/-! ### A store that is nearly full -/

theorem serve_append (s : AlertStore) (calls calls' : List Call) :
    (s.serve (calls ++ calls')).1 = ((s.serve calls).1.serve calls').1 := by
  induction calls generalizing s with
  | nil => rfl
  | cons c rest ih => exact ih _

/-- While there is room, every record that is new is taken in. -/
theorem serve_creates (alerts : List Alert) (available : s.unavailable = false)
    (room : s.size + alerts.length ≤ highWater) (absent : ∀ alert ∈ alerts, ¬ s.Holds alert.id)
    (distinct : (alerts.map Alert.id).Nodup) :
    let s' := (s.serve (alerts.map .create)).1
    s'.unavailable = false ∧ s'.size = s.size + alerts.length ∧
      ∀ id ∉ alerts.map Alert.id, s'.get? id = s.get? id := by
  induction alerts generalizing s with
  | nil => exact ⟨available, rfl, fun _ _ => rfl⟩
  | cons alert rest ih =>
    obtain ⟨new, distinct⟩ := List.nodup_cons.mp distinct
    obtain ⟨first, others⟩ := List.forall_mem_cons.mp absent
    rw [List.length_cons] at room
    have made : (s.call (.create alert)).1 = s.insert alert :=
      congrArg Prod.fst (create_of_absent available (Nat.lt_of_lt_of_le (by omega) room) first)
    have grown : (s.insert alert).size = s.size + 1 := size_insert_of_absent first
    have next := ih (s := s.insert alert) available (by omega) (fun other mem ⟨record, there⟩ => ?_) distinct
    · obtain ⟨available', size, kept⟩ := next
      rw [List.map_cons, serve, made]
      refine ⟨available', by rw [size, grown, List.length_cons]; omega, fun id away => ?_⟩
      rw [List.map_cons, List.mem_cons, not_or] at away
      rw [kept id away.2, get?_insert, if_neg (Ne.symm away.1)]
    · rw [get?_insert, if_neg fun same : alert.id = other.id => new (same ▸ List.mem_map_of_mem mem)] at there
      exact others other mem ⟨record, there⟩

def stranger (n : Nat) : Alert :=
  .ofRule (.ofList (List.replicate (n + 1) 'x')) .highLoad 95 default

theorem stranger_injective : Function.Injective fun n => (stranger n).id := fun n m same => by
  have lengths := congrArg (List.length ∘ String.toList) same
  simpa [stranger, Alert.ofRule] using lengths

theorem stranger_ne_a (n : Nat) : "a" ≠ (stranger n).id := fun same => by
  have chars := congrArg String.toList same
  simp [stranger, Alert.ofRule, List.replicate_succ] at chars

/-- An alert is created and closed, and 8,999 others are created. Then it is created again: the store makes room, the
closed record goes, and the alert is open. If another one is created instead it can not be closed again. -/
theorem reopened_when_nearly_full :
    let alert : Alert := .ofRule "a" .highLoad 95 default
    let calls := [.create alert, .resolve "a" default] ++ ((List.range 8999).map stranger).map .create
    let s := (empty.serve calls).1
    s.unavailable = false ∧ s.get? "a" = some (alert.resolve default) ∧
      (s.create alert).2 = .ok "a" ∧ (s.create alert).1.HoldsOpen "a" ∧
      ((s.create (stranger 8999)).1.resolve "a" default).2 = .error (.notFound "a") := by
  intro alert calls s
  let s₀ := (empty.serve [.create alert, .resolve "a" default]).1
  let strangers := (List.range 8999).map stranger
  have split : s = (s₀.serve (strangers.map .create)).1 := serve_append ..
  have before : s₀.get? "a" = some (alert.resolve default) := by decide +kernel
  have alone : s₀.alerts.keys = ["a"] := by decide +kernel
  have length : strangers.length = 8999 := by rw [List.length_map, List.length_range]
  have named {id : AlertId} (mem : id ∈ strangers.map Alert.id) : "a" ≠ id := by
    obtain ⟨other, known, rfl⟩ := List.mem_map.mp mem
    obtain ⟨n, -, rfl⟩ := List.mem_map.mp known
    exact stranger_ne_a n
  have absent : ∀ other ∈ strangers, ¬ s₀.Holds other.id := fun other mem held => by
    have mem' := Std.TreeMap.mem_keys.mpr (Std.TreeMap.contains_iff_mem.mp ((contains_iff _ _).mpr held))
    rw [alone, List.mem_singleton] at mem'
    exact named (List.mem_map_of_mem mem) mem'.symm
  have distinct : (strangers.map Alert.id).Nodup := by
    rw [List.map_map]
    exact List.Nodup.map stranger_injective List.nodup_range
  obtain ⟨available, size, kept⟩ := serve_creates strangers (by decide +kernel) (by rw [length]; decide +kernel)
    absent distinct
  rw [← split] at available size kept
  have size : s.size = 9000 := by
    rw [size, length]
    decide +kernel
  have many : highWater ≤ s.size := size.symm ▸ Nat.le_refl 9000
  have few : s.size ≤ capacity := size.symm ▸ (by decide)
  have there : s.get? alert.id = some (alert.resolve default) := (kept "a" fun mem => named mem rfl).trans before
  have closed := alert.isOpen_resolve default
  obtain ⟨ok, -, reopened⟩ := create_again few available alert there closed
  have gone := closed_let_go available many there closed (stranger 8999) (stranger_ne_a _).symm
  have available' : (s.create (stranger 8999)).1.unavailable = false :=
    (available_create s _).trans available
  exact ⟨available, there, ok, ⟨alert, reopened many, rfl⟩,
    congrArg Prod.snd (resolve_of_absent available' gone default)⟩

end ThresholdAlerts.AlertStore
