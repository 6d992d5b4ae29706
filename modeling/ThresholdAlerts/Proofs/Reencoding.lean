import ThresholdAlerts.Ingest.Sample
import ThresholdAlerts.Proofs.Calendar
import ThresholdAlerts.Proofs.Doubles
import ThresholdAlerts.Proofs.Rereading
/-! Records as texts. What is decoded from a text can be written down again, and decoding what was written gives the
same record. -/
namespace ThresholdAlerts

/-! ### Parts of records -/

namespace Operator

/-- An operator that its own name stands for. -/
def Settled (o : Operator) : Prop :=
  parse o.name = o

theorem settled_of_supported {o : Operator} (supported : ∀ raw, o ≠ .unsupported raw) : o.Settled := by
  unfold Settled
  cases o with
  | unsupported raw => exact absurd rfl (supported raw)
  | gt => decide +kernel
  | lt => decide +kernel
  | gte => decide +kernel
  | lte => decide +kernel
  | eq => decide +kernel

theorem settled_parse (raw : String) : (parse raw).Settled := by
  generalize same : parse raw = o
  cases o with
  | unsupported s =>
    have kept : s = raw := by
      unfold parse at same
      split at same <;> first | contradiction | exact (Operator.unsupported.inj same).symm
    exact kept ▸ same
  | _ => exact settled_of_supported nofun

end Operator

namespace Json

variable {α β : Type}

theorem of_map_ok {f : α → β} {x : Except Fault α} {b : β} (mapped : x.map f = .ok b) : ∃ a, x = .ok a ∧ f a = b := by
  cases x with
  | error e => contradiction
  | ok a => exact ⟨a, rfl, Except.ok.inj mapped⟩

theorem of_bind_ok {f : α → Except Fault β} {x : Except Fault α} {b : β} (bound : (x >>= f) = .ok b) :
    ∃ a, x = .ok a ∧ f a = .ok b := by
  cases x with
  | error e => contradiction
  | ok a => exact ⟨a, rfl, bound⟩

theorem ReadsBack.decodeWhole {v : Json} (back : v.ReadsBack) (decode : Json → Except Fault α) :
    Json.decodeWhole decode v.write = decode v := by
  unfold Json.decodeWhole
  rw [back]
  change (decode v >>= fun a => Except.ok a) = decode v
  cases decode v <;> rfl

theorem of_decodeWhole {decode : Json → Except Fault α} {s : String} {a : α} (decoded : decodeWhole decode s = .ok a) :
    decode (read s).1 = .ok a := by
  unfold decodeWhole at decoded
  generalize read s = p at decoded ⊢
  obtain ⟨b, whole, ended⟩ := of_bind_ok decoded
  split at ended
  · exact Except.ok.inj ended ▸ whole
  · contradiction

theorem decodeFloat_float {x : Float} (finite : x.isFinite = true) : (float x).decodeFloat = .ok x := by
  rw [float, if_pos finite]
  rfl

theorem legible_float {x : Float} (back : (float x).ReadsBack) : (float x).Legible := by
  cases finite : x.isFinite with
  | true =>
    rw [float, if_pos finite] at back ⊢
    exact .number back
  | false =>
    rw [float, finite]
    exact .null

theorem legible_optional {f : α → Json} {a : Option α} (each : ∀ b ∈ a, (f b).Legible) : (optional f a).Legible := by
  cases a with
  | none => exact .null
  | some b => exact each b rfl

theorem legible_record {members : List (String × Json)} (each : ∀ m ∈ members, m.2.Legible) :
    (record members).Legible := by
  refine .object (fun m mem => ?_) (fun m mem => ?_) <;> obtain ⟨n, member, rfl⟩ := List.mem_map.1 mem
  · rfl
  · exact each n member

theorem decodeFloat_isFinite {v : Json} {x : Float} (finite : v.Finite) (decoded : v.decodeFloat = .ok x) :
    x.isFinite = true := by
  unfold decodeFloat at decoded
  split at decoded
  · exact Except.ok.inj decoded ▸ (within_toFloat _).isFinite
  · exact Except.ok.inj decoded ▸ isFinite_neg (within_toFloat _).isFinite
  case h_3 y =>
    obtain rfl := Except.ok.inj decoded
    cases finite with
    | number finite => exact finite _ rfl
  · contradiction

theorem decodeOption_isFinite {v : Json} {a : Option Float} (finite : v.Finite)
    (decoded : decodeOption decodeFloat v = .ok a) : ∀ x ∈ a, x.isFinite = true := by
  intro x mem
  unfold decodeOption at decoded
  split at decoded
  · obtain rfl := Except.ok.inj decoded
    contradiction
  · obtain ⟨y, number, rfl⟩ := of_map_ok decoded
    exact Option.some.inj mem ▸ decodeFloat_isFinite finite number

namespace Schema

variable {Draft : Type} {schema : Schema Draft} {origin : Origin} {P : Draft → Prop} {draft draft' : Draft}

section Induction

variable (keeps : ∀ name v d d', v.Finite → P d → schema.put name v d = .ok d' → P d')
include keeps

theorem putMembers_induct {members : List (Option String × Json)} (finite : ∀ m ∈ members, m.2.Finite) {seen : List String}
    (holds : P draft) (decoded : schema.putMembers seen members draft = .ok draft') : P draft' := by
  induction members generalizing seen draft with
  | nil => exact Except.ok.inj decoded ▸ holds
  | cons m members ih =>
    obtain ⟨head, others⟩ := List.forall_mem_cons.1 finite
    obtain ⟨_ | name, v⟩ := m
    · contradiction
    · unfold putMembers at decoded
      split at decoded
      · split at decoded
        · contradiction
        · obtain ⟨d, put, rest⟩ := of_bind_ok decoded
          exact ih others (keeps name v draft d head holds put) rest
      · split at decoded
        · exact ih others holds decoded
        · contradiction

theorem putItems_induct {names : List String} {items : List Json} (finite : ∀ v ∈ items, v.Finite) {closed : Bool}
    (holds : P draft) (decoded : schema.putItems origin names items closed draft = .ok draft') : P draft' := by
  induction names generalizing items draft with
  | nil =>
    cases items with
    | nil =>
      unfold putItems at decoded
      split at decoded
      · exact Except.ok.inj decoded ▸ holds
      · contradiction
    | cons v items => contradiction
  | cons name names ih =>
    cases items with
    | nil =>
      unfold putItems at decoded
      split at decoded
      · exact Except.ok.inj decoded ▸ holds
      · contradiction
    | cons v items =>
      obtain ⟨head, others⟩ := List.forall_mem_cons.1 finite
      obtain ⟨d, put, rest⟩ := of_bind_ok decoded
      exact ih others (keeps name v draft d head holds put) rest

/-- What every field keeps that is taken in holds of the whole draft. -/
theorem decode_induct {v : Json} {form : Form} (finite : v.Finite) (holds : P draft)
    (decoded : schema.decode origin draft v = .ok (draft', form)) : P draft' := by
  unfold decode at decoded
  split at decoded
  case h_1 =>
    obtain ⟨d, put, decoded⟩ := of_bind_ok decoded
    cases finite with
    | object _ each =>
      have kept := putMembers_induct keeps each holds put
      split at decoded
      · exact (Prod.mk.inj (Except.ok.inj decoded)).1 ▸ kept
      · contradiction
  case h_2 =>
    obtain ⟨d, put, decoded⟩ := of_bind_ok decoded
    cases finite with
    | array _ each => exact (Prod.mk.inj (Except.ok.inj decoded)).1 ▸ putItems_induct keeps each holds put
  · contradiction
  · contradiction

end Induction

def putAll (schema : Schema Draft) : List (String × Json) → Draft → Except Fault Draft
  | [], draft => .ok draft
  | (name, v) :: rest, draft => schema.put name v draft >>= schema.putAll rest

theorem putMembers_eq_putAll {members : List (String × Json)} {seen : List String}
    (known : ∀ m ∈ members, schema.fields.contains m.1 = true) (fresh : ∀ m ∈ members, m.1 ∉ seen)
    (distinct : (members.map Prod.fst).Nodup) :
    schema.putMembers seen (members.map fun (key, v) => (some key, v)) draft = schema.putAll members draft := by
  induction members generalizing seen draft with
  | nil => rfl
  | cons m members ih =>
    obtain ⟨name, v⟩ := m
    obtain ⟨listed, known⟩ := List.forall_mem_cons.1 known
    obtain ⟨new, fresh⟩ := List.forall_mem_cons.1 fresh
    obtain ⟨once, distinct⟩ := List.nodup_cons.1 distinct
    have unseen : ¬ seen.contains name = true := fun mem => new (List.contains_iff_mem.1 mem)
    rw [List.map_cons, putMembers, if_pos listed, if_neg unseen, putAll]
    refine congrArg (schema.put name v draft >>= ·) (funext fun d => ih known (fun m mem => ?_) distinct)
    rw [List.mem_cons, not_or]
    exact ⟨fun same => once (same ▸ List.mem_map.2 ⟨m, mem, rfl⟩), fresh m mem⟩

/-- A record with all fields in order is read as the draft that they make, or fails as the first of them does that
cannot be taken in. -/
theorem decode_record {members : List (String × Json)} (names : members.map Prod.fst = schema.fields)
    (distinct : schema.fields.Nodup) :
    schema.decode origin draft (record members) = (schema.putAll members draft).map fun d => (d, .named) := by
  have known : ∀ m ∈ members, schema.fields.contains m.1 = true :=
    fun m mem => List.contains_iff_mem.2 (names ▸ List.mem_map_of_mem mem)
  have all : schema.putMembers [] (members.map fun (key, v) => (some key, v)) draft = schema.putAll members draft :=
    putMembers_eq_putAll known (by simp) (names ▸ distinct)
  rw [record, decode, all]
  cases schema.putAll members draft <;> rfl

end Schema

theorem of_required_ok {form : Form} {name : String} {a : Option α} {b : α} (present : required form name a = .ok b) :
    a = some b := by
  cases a with
  | none => cases form <;> contradiction
  | some a => exact congrArg some (Except.ok.inj present)

theorem of_nullable_ok {form : Form} {a : Option (Option α)} {b : Option α} (read : nullable form a = .ok b) :
    ∀ x ∈ b, a = some (some x) := by
  intro x mem
  cases a with
  | none =>
    cases form with
    | named =>
      obtain rfl := Except.ok.inj read
      contradiction
    | positional => contradiction
  | some a => exact congrArg some ((Except.ok.inj read).trans mem)

theorem decodeOption_optional {f : α → Json} {decode : Json → Except Fault α} {a : Option α}
    (each : ∀ b ∈ a, decode (f b) = .ok b ∧ f b ≠ .null) : decodeOption decode (optional f a) = .ok a := by
  cases a with
  | none => rfl
  | some b =>
    obtain ⟨decoded, value⟩ := each b rfl
    rw [optional, decodeOption]
    · rw [decoded]; rfl
    · exact value

theorem decodeOption_float {a : Option Float} (finite : ∀ x ∈ a, x.isFinite = true) :
    decodeOption decodeFloat (optional float a) = .ok a :=
  decodeOption_optional fun x mem => ⟨decodeFloat_float (finite x mem), by rw [float, if_pos (finite x mem)]; nofun⟩

theorem decodeOption_optional_float (a : Option Float) : ∃ b, decodeOption decodeFloat (optional float a) = .ok b := by
  cases a with
  | none => exact ⟨none, rfl⟩
  | some x =>
    cases finite : x.isFinite with
    | true => exact ⟨some x, decodeOption_float fun y mem => Option.some.inj mem ▸ finite⟩
    | false =>
      refine ⟨none, ?_⟩
      rw [optional, float, finite]
      rfl

theorem isSound_float (x : Float) (depth : Nat) : (float x).isSound depth = true := by
  unfold float
  split
  · simp [isSound]
  · rfl

theorem isSound_optional {f : α → Json} {depth : Nat} (each : ∀ a, (f a).isSound depth = true) (a : Option α) :
    (optional f a).isSound depth = true := by
  cases a with
  | none => rfl
  | some a => exact each a

theorem isSound_record {members : List (String × Json)} {depth : Nat} (each : ∀ m ∈ members, m.2.isSound depth = true) :
    (record members).isSound (depth + 1) = true := by
  have all : allMembersSound depth (members.map fun (key, v) => (some key, v)) = true := by
    induction members with
    | nil => rfl
    | cons m members ih =>
      obtain ⟨head, rest⟩ := List.forall_mem_cons.1 each
      simp [allMembersSound, head, ih rest]
  simp [record, isSound, all]

end Json

namespace Timestamp

variable {t : Timestamp}

theorem ofJson_toJson (proper : t.Proper) : ofJson t.toJson = .ok t := by
  have text : t.toJson.decodeText = .ok t.write := rfl
  simp only [ofJson, text, bind, Except.bind, read?_write proper]
  rfl

theorem proper_ofJson {v : Json} (decoded : ofJson v = .ok t) : t.Proper := by
  obtain ⟨s, -, read⟩ := Json.of_bind_ok decoded
  split at read
  case h_1 found => exact Except.ok.inj read ▸ proper_of_read? found
  case h_2 => contradiction

theorem decodeOption_toJson {a : Option Timestamp} (proper : ∀ t ∈ a, t.Proper) :
    Json.decodeOption ofJson (.optional toJson a) = .ok a :=
  Json.decodeOption_optional fun t mem => ⟨ofJson_toJson (proper t mem), nofun⟩

theorem proper_decodeOption {v : Json} {a : Option Timestamp} (decoded : Json.decodeOption ofJson v = .ok a) :
    ∀ t ∈ a, t.Proper := by
  intro t mem
  unfold Json.decodeOption at decoded
  split at decoded
  · obtain rfl := Except.ok.inj decoded
    contradiction
  · obtain ⟨u, read, rfl⟩ := Json.of_map_ok decoded
    exact Option.some.inj mem ▸ proper_ofJson read

end Timestamp

namespace Rule

/-- A rule as a text can hold it. -/
structure Writable (r : Rule) : Prop where
  operator : r.operator.Settled
  threshold : ∀ x ∈ r.threshold, x.isFinite = true

theorem ofJson_toJson {r : Rule} (writable : r.Writable) : ofJson r.toJson = .ok r := by
  have threshold := Json.decodeOption_float writable.threshold
  have operator : Operator.ofJson r.operator.toJson = .ok r.operator := congrArg Except.ok writable.operator
  have severity : Severity.ofJson .direct r.severity.toJson = .ok r.severity := by
    cases r.severity <;> rfl
  have required : (Json.nat r.required.toNat).decodeNat (Nat.pow 2 32) = .ok r.required.toNat :=
    if_pos r.required.toNat_lt
  have draft : schema.decode .direct {} r.toJson = .ok ({
      id := some r.id, name := some r.name, metricKey := some r.metricKey, operator := some r.operator
      threshold := some r.threshold, severity := some r.severity, enabled := some r.enabled
      required := some r.required }, .named) := by
    refine (Json.Schema.decode_record rfl (by decide)).trans ?_
    simp [Json.Schema.putAll, schema, threshold, operator, severity, required, Json.text, Json.decodeText, Json.decodeBool,
      Except.map, bind, Except.bind]
  rw [ofJson, draft]
  rfl

/-- The doubles in a rule. -/
def doubles (r : Rule) : List Float :=
  r.threshold.toList

theorem legible_toJson {r : Rule} (exact : ∀ x ∈ r.doubles, (Json.float x).ReadsBack) : r.toJson.Legible := by
  have threshold : (Json.optional .float r.threshold).Legible :=
    Json.legible_optional fun x mem => Json.legible_float (exact x (Option.mem_toList.2 mem))
  have required : (Json.nat r.required.toNat).Legible :=
    .number (Json.readsBack_nat (r.required.toNat_lt.trans (by decide)))
  refine Json.legible_record fun m mem => ?_
  simp only [List.mem_cons, List.not_mem_nil, or_false] at mem
  rcases mem with rfl | rfl | rfl | rfl | rfl | rfl | rfl | rfl
  · exact .string _
  · exact .string _
  · exact .string _
  · exact .string _
  · exact threshold
  · exact .string _
  · exact .bool _
  · exact required

structure Draft.Writable (d : Draft) : Prop where
  operator : ∀ o ∈ d.operator, o.Settled
  threshold : ∀ t ∈ d.threshold, ∀ x ∈ t, x.isFinite = true

theorem schema_put {name : String} {v : Json} {d d' : Draft} (finite : v.Finite) (writable : d.Writable)
    (put : schema.put name v d = .ok d') : d'.Writable := by
  obtain ⟨operator, threshold⟩ := writable
  unfold schema at put
  dsimp only at put
  split at put <;> obtain ⟨a, decoded, rfl⟩ := Json.of_map_ok put
  case h_4 =>
    obtain ⟨raw, -, rfl⟩ := Json.of_map_ok decoded
    exact ⟨fun o mem => Option.some.inj mem ▸ Operator.settled_parse raw, threshold⟩
  case h_5 => exact ⟨operator, fun t mem => Option.some.inj mem ▸ Json.decodeOption_isFinite finite decoded⟩
  all_goals exact ⟨operator, threshold⟩

theorem writable_ofJson {v : Json} {r : Rule} (finite : v.Finite) (decoded : ofJson v = .ok r) : r.Writable := by
  obtain ⟨⟨d, form⟩, drafted, finished⟩ := Json.of_bind_ok decoded
  have writable : d.Writable :=
    Json.Schema.decode_induct (fun _ _ _ _ => schema_put) finite ⟨by simp, by simp⟩ drafted
  obtain ⟨id, -, finished⟩ := Json.of_bind_ok finished
  obtain ⟨name, -, finished⟩ := Json.of_bind_ok finished
  obtain ⟨metricKey, -, finished⟩ := Json.of_bind_ok finished
  obtain ⟨operator, named, finished⟩ := Json.of_bind_ok finished
  obtain rfl := Except.ok.inj finished
  refine ⟨writable.operator operator (Json.of_required_ok named), fun x mem => ?_⟩
  cases threshold : d.threshold with
  | none => simp [threshold] at mem
  | some t => exact writable.threshold t threshold x (by simpa [threshold] using mem)

end Rule

namespace Alert

variable {origin : Json.Origin}

/-- An alert as a text can hold it. -/
structure Writable (a : Alert) : Prop where
  operator : a.operator.Settled
  threshold : ∀ x ∈ a.threshold, x.isFinite = true
  triggerValue : a.triggerValue.isFinite = true
  openedAt : a.openedAt.Proper
  resolvedAt : ∀ t ∈ a.resolvedAt, t.Proper

theorem distinct_fields : ∀ origin, (schema origin).fields.Nodup
  | .direct => by decide
  | .buffered => by decide

theorem ofJson_toJson {a : Alert} (writable : a.Writable) : ofJson origin a.toJson = .ok a := by
  have severity : Severity.ofJson origin a.severity.toJson = .ok a.severity := by
    cases a.severity <;> rfl
  have operator : Operator.ofJson a.operator.toJson = .ok a.operator := congrArg Except.ok writable.operator
  have threshold := Json.decodeOption_float writable.threshold
  have triggerValue := Json.decodeFloat_float writable.triggerValue
  have openedAt := Timestamp.ofJson_toJson writable.openedAt
  have resolvedAt := Timestamp.decodeOption_toJson writable.resolvedAt
  have draft : (schema origin).decode origin {} a.toJson = .ok ({
      id := some a.id, ruleId := some a.ruleId, ruleName := some a.ruleName, metricKey := some a.metricKey
      severity := some a.severity, operator := some a.operator, threshold := some a.threshold
      triggerValue := some a.triggerValue, message := some a.message, openedAt := some a.openedAt
      resolvedAt := some a.resolvedAt }, .named) := by
    refine (Json.Schema.decode_record rfl (distinct_fields origin)).trans ?_
    simp [Json.Schema.putAll, schema, severity, operator, threshold, triggerValue, openedAt, resolvedAt, Json.text,
      Json.decodeText, Except.map, bind, Except.bind]
  rw [ofJson, draft]
  rfl

/-- A trigger value without a number is written as null, and null is no trigger value. -/
theorem ofJson_toJson_of_infinite {a : Alert} (infinite : a.triggerValue.isFinite = false) :
    ofJson origin a.toJson = .error .invalidType := by
  have severity : Severity.ofJson origin a.severity.toJson = .ok a.severity := by
    cases a.severity <;> rfl
  have operator : Operator.ofJson a.operator.toJson = .ok (.parse a.operator.name) := rfl
  obtain ⟨t, threshold⟩ := Json.decodeOption_optional_float a.threshold
  have triggerValue : (Json.float a.triggerValue).decodeFloat = .error .invalidType := by
    rw [Json.float, infinite]
    rfl
  have draft : (schema origin).decode origin {} a.toJson = .error .invalidType := by
    refine (Json.Schema.decode_record rfl (distinct_fields origin)).trans ?_
    simp [Json.Schema.putAll, schema, severity, operator, threshold, triggerValue, Json.text, Json.decodeText, Except.map,
      bind, Except.bind]
  rw [ofJson, draft]
  rfl

/-- The doubles in an alert. -/
def doubles (a : Alert) : List Float :=
  a.triggerValue :: a.threshold.toList

theorem legible_toJson {a : Alert} (exact : ∀ x ∈ a.doubles, (Json.float x).ReadsBack) : a.toJson.Legible := by
  have threshold : (Json.optional .float a.threshold).Legible :=
    Json.legible_optional fun x mem => Json.legible_float (exact x (List.mem_cons_of_mem _ (Option.mem_toList.2 mem)))
  have triggerValue := Json.legible_float (exact a.triggerValue List.mem_cons_self)
  have resolvedAt : (Json.optional Timestamp.toJson a.resolvedAt).Legible := Json.legible_optional fun _ _ => .string _
  refine Json.legible_record fun m mem => ?_
  simp only [List.mem_cons, List.not_mem_nil, or_false] at mem
  rcases mem with rfl | rfl | rfl | rfl | rfl | rfl | rfl | rfl | rfl | rfl | rfl
  case inr.inr.inr.inr.inr.inr.inl => exact threshold
  case inr.inr.inr.inr.inr.inr.inr.inl => exact triggerValue
  case inr.inr.inr.inr.inr.inr.inr.inr.inr.inr => exact resolvedAt
  all_goals exact .string _

structure Draft.Writable (d : Draft) : Prop where
  operator : ∀ o ∈ d.operator, o.Settled
  threshold : ∀ t ∈ d.threshold, ∀ x ∈ t, x.isFinite = true
  triggerValue : ∀ x ∈ d.triggerValue, x.isFinite = true
  openedAt : ∀ t ∈ d.openedAt, t.Proper
  resolvedAt : ∀ t ∈ d.resolvedAt, ∀ u ∈ t, u.Proper

theorem schema_put {name : String} {v : Json} {d d' : Draft} (finite : v.Finite) (writable : d.Writable)
    (put : (schema origin).put name v d = .ok d') : d'.Writable := by
  obtain ⟨operator, threshold, triggerValue, openedAt, resolvedAt⟩ := writable
  unfold schema at put
  dsimp only at put
  split at put <;> obtain ⟨a, decoded, rfl⟩ := Json.of_map_ok put
  case h_6 =>
    obtain ⟨raw, -, rfl⟩ := Json.of_map_ok decoded
    exact ⟨fun o mem => Option.some.inj mem ▸ Operator.settled_parse raw, threshold, triggerValue, openedAt, resolvedAt⟩
  case h_7 =>
    exact ⟨operator, fun t mem => Option.some.inj mem ▸ Json.decodeOption_isFinite finite decoded, triggerValue, openedAt,
      resolvedAt⟩
  case h_8 =>
    exact ⟨operator, threshold, fun x mem => Option.some.inj mem ▸ Json.decodeFloat_isFinite finite decoded, openedAt,
      resolvedAt⟩
  case h_10 =>
    exact ⟨operator, threshold, triggerValue, fun t mem => Option.some.inj mem ▸ Timestamp.proper_ofJson decoded,
      resolvedAt⟩
  case h_11 =>
    exact ⟨operator, threshold, triggerValue, openedAt,
      fun t mem => Option.some.inj mem ▸ Timestamp.proper_decodeOption decoded⟩
  all_goals exact ⟨operator, threshold, triggerValue, openedAt, resolvedAt⟩

theorem writable_ofJson {v : Json} {a : Alert} (finite : v.Finite) (decoded : ofJson origin v = .ok a) : a.Writable := by
  obtain ⟨⟨d, form⟩, drafted, finished⟩ := Json.of_bind_ok decoded
  have writable : d.Writable :=
    Json.Schema.decode_induct (fun _ _ _ _ => schema_put) finite ⟨by simp, by simp, by simp, by simp, by simp⟩ drafted
  obtain ⟨id, -, finished⟩ := Json.of_bind_ok finished
  obtain ⟨ruleId, -, finished⟩ := Json.of_bind_ok finished
  obtain ⟨ruleName, -, finished⟩ := Json.of_bind_ok finished
  obtain ⟨metricKey, -, finished⟩ := Json.of_bind_ok finished
  obtain ⟨severity, -, finished⟩ := Json.of_bind_ok finished
  obtain ⟨operator, named, finished⟩ := Json.of_bind_ok finished
  obtain ⟨threshold, compared, finished⟩ := Json.of_bind_ok finished
  obtain ⟨triggerValue, measured, finished⟩ := Json.of_bind_ok finished
  obtain ⟨message, -, finished⟩ := Json.of_bind_ok finished
  obtain ⟨openedAt, opened, finished⟩ := Json.of_bind_ok finished
  obtain ⟨resolvedAt, resolved, finished⟩ := Json.of_bind_ok finished
  obtain rfl := Except.ok.inj finished
  exact {
    operator := writable.operator operator (Json.of_required_ok named)
    threshold := fun x mem => writable.threshold _ (Json.of_nullable_ok compared x mem) x rfl
    triggerValue := writable.triggerValue triggerValue (Json.of_required_ok measured)
    openedAt := writable.openedAt openedAt (Json.of_required_ok opened)
    resolvedAt := fun t mem => writable.resolvedAt _ (Json.of_nullable_ok resolved t mem) t rfl }

theorem isSound_toJson (a : Alert) (depth : Nat) : a.toJson.isSound (depth + 1) = true := by
  have threshold : (Json.optional .float a.threshold).isSound depth = true :=
    Json.isSound_optional (fun x => Json.isSound_float x depth) a.threshold
  have resolvedAt : (Json.optional Timestamp.toJson a.resolvedAt).isSound depth = true :=
    Json.isSound_optional (fun _ => rfl) a.resolvedAt
  refine Json.isSound_record fun m mem => ?_
  simp only [List.mem_cons, List.not_mem_nil, or_false] at mem
  rcases mem with rfl | rfl | rfl | rfl | rfl | rfl | rfl | rfl | rfl | rfl | rfl
  case inr.inr.inr.inr.inr.inr.inl => exact threshold
  case inr.inr.inr.inr.inr.inr.inr.inl => exact Json.isSound_float _ _
  case inr.inr.inr.inr.inr.inr.inr.inr.inr.inr => exact resolvedAt
  all_goals rfl

end Alert

namespace Event

def Writable : Event → Prop
  | .opened alert => alert.Writable
  | .resolved _ _ resolvedAt _ => resolvedAt.Proper

/-- The doubles in an event. -/
def doubles : Event → List Float
  | .opened alert => alert.doubles
  | .resolved .. => []

theorem ofContent_opened {a : Alert} (writable : a.Writable) :
    ofContent .opened (.record [("alert", a.toJson)]) = .ok (.opened a) := by
  have draft : openedSchema.decode .buffered none (.record [("alert", a.toJson)]) = .ok (some a, .named) := by
    refine (Json.Schema.decode_record rfl (by decide)).trans ?_
    simp [Json.Schema.putAll, openedSchema, Alert.ofJson_toJson writable, Except.map, bind, Except.bind]
  rw [ofContent, draft]
  rfl

theorem ofContent_opened_of_infinite {a : Alert} (infinite : a.triggerValue.isFinite = false) :
    ofContent .opened (.record [("alert", a.toJson)]) = .error .invalidType := by
  have draft : openedSchema.decode .buffered none (.record [("alert", a.toJson)]) = .error .invalidType := by
    refine (Json.Schema.decode_record rfl (by decide)).trans ?_
    simp [Json.Schema.putAll, openedSchema, Alert.ofJson_toJson_of_infinite infinite, Except.map, bind, Except.bind]
  rw [ofContent, draft]
  rfl

theorem ofContent_resolved {alertId : AlertId} {ruleId : RuleId} {time : Timestamp} {reason : ResolveReason}
    (proper : time.Proper) :
    ofContent .resolved (.record [("alert_id", .text alertId), ("rule_id", .text ruleId), ("resolved_at", time.toJson),
      ("reason", reason.toJson)]) = .ok (.resolved alertId ruleId time reason) := by
  have resolvedAt := Timestamp.ofJson_toJson proper
  have named : ResolveReason.ofJson .buffered reason.toJson = .ok reason := by
    cases reason <;> rfl
  have draft : resolvedSchema.decode .buffered {} (.record [("alert_id", .text alertId), ("rule_id", .text ruleId),
      ("resolved_at", time.toJson), ("reason", reason.toJson)]) = .ok ({
        alertId := some alertId, ruleId := some ruleId, resolvedAt := some time, reason := some reason }, .named) := by
    refine (Json.Schema.decode_record rfl (by decide)).trans ?_
    simp [Json.Schema.putAll, resolvedSchema, resolvedAt, named, Json.text, Json.decodeText, Except.map, bind, Except.bind]
  rw [ofContent, draft]
  rfl

theorem ofJson_object {members : List (Option String × Json)} {tag : Tag} {others : List (String × Json)}
    (parted : split none members = .ok (some tag, others)) :
    ofJson (.object members true) = ofContent tag (.record others) := by
  simp only [ofJson, parted, bind, Except.bind]
  rfl

theorem ofJson_opened (a : Alert) :
    ofJson (Event.opened a).toJson = ofContent .opened (.record [("alert", a.toJson)]) := by
  refine ofJson_object ?_
  simp [split, Tag.ofJson, Json.text, Json.decodeText, Json.bufferDepth, a.isSound_toJson, bind, Except.bind, pure,
    Except.pure]

theorem ofJson_resolved (alertId : AlertId) (ruleId : RuleId) (time : Timestamp) (reason : ResolveReason) :
    ofJson (Event.resolved alertId ruleId time reason).toJson = ofContent .resolved (.record [("alert_id", .text alertId),
      ("rule_id", .text ruleId), ("resolved_at", time.toJson), ("reason", reason.toJson)]) := by
  refine ofJson_object ?_
  simp [split, Tag.ofJson, Json.text, Json.decodeText, Json.isSound, Timestamp.toJson, ResolveReason.toJson, bind,
    Except.bind, pure, Except.pure]

theorem ofJson_toJson {e : Event} (writable : e.Writable) : ofJson e.toJson = .ok e := by
  cases e with
  | opened a => exact (ofJson_opened a).trans (ofContent_opened writable)
  | resolved alertId ruleId time reason =>
    exact (ofJson_resolved alertId ruleId time reason).trans (ofContent_resolved writable)

theorem legible_toJson {e : Event} (exact : ∀ x ∈ e.doubles, (Json.float x).ReadsBack) : e.toJson.Legible := by
  cases e with
  | opened a =>
    refine Json.legible_record fun m mem => ?_
    simp only [List.mem_cons, List.not_mem_nil, or_false] at mem
    rcases mem with rfl | rfl
    · exact .string _
    · exact Alert.legible_toJson exact
  | resolved alertId ruleId time reason =>
    refine Json.legible_record fun m mem => ?_
    simp only [List.mem_cons, List.not_mem_nil, or_false] at mem
    rcases mem with rfl | rfl | rfl | rfl | rfl <;> exact .string _

theorem writable_ofContent {tag : Tag} {v : Json} {e : Event} (finite : v.Finite)
    (decoded : ofContent tag v = .ok e) : e.Writable := by
  cases tag with
  | opened =>
    obtain ⟨⟨d, form⟩, drafted, finished⟩ := Json.of_bind_ok decoded
    have writable : ∀ a ∈ d, a.Writable := by
      refine Json.Schema.decode_induct (P := fun d => ∀ a ∈ d, a.Writable) ?_ finite (by simp) drafted
      intro name v d d' finite writable put a mem
      obtain ⟨b, read, rfl⟩ := Json.of_map_ok put
      exact Option.some.inj mem ▸ Alert.writable_ofJson finite read
    obtain ⟨a, present, finished⟩ := Json.of_bind_ok finished
    obtain rfl := Except.ok.inj finished
    exact writable a (Json.of_required_ok present)
  | resolved =>
    obtain ⟨⟨d, form⟩, drafted, finished⟩ := Json.of_bind_ok decoded
    have proper : ∀ t ∈ d.resolvedAt, t.Proper := by
      refine Json.Schema.decode_induct (P := fun d => ∀ t ∈ d.resolvedAt, t.Proper) ?_ finite (by simp) drafted
      intro name v d d' _ proper put
      unfold resolvedSchema at put
      dsimp only at put
      split at put <;> obtain ⟨a, read, rfl⟩ := Json.of_map_ok put
      case h_3 => exact fun t mem => Option.some.inj mem ▸ Timestamp.proper_ofJson read
      all_goals exact proper
    obtain ⟨alertId, -, finished⟩ := Json.of_bind_ok finished
    obtain ⟨ruleId, -, finished⟩ := Json.of_bind_ok finished
    obtain ⟨resolvedAt, present, finished⟩ := Json.of_bind_ok finished
    obtain ⟨reason, -, finished⟩ := Json.of_bind_ok finished
    obtain rfl := Except.ok.inj finished
    exact proper resolvedAt (Json.of_required_ok present)

/-- The members beside the type are members of the object. -/
theorem finite_split {tag tag' : Option Tag} {members : List (Option String × Json)} {others : List (String × Json)}
    (finite : ∀ m ∈ members, m.2.Finite) (parted : split tag members = .ok (tag', others)) :
    ∀ m ∈ others, m.2.Finite := by
  induction members generalizing tag tag' others with
  | nil =>
    obtain ⟨-, rfl⟩ := Prod.mk.inj (Except.ok.inj parted)
    simp
  | cons m members ih =>
    obtain ⟨head, rest⟩ := List.forall_mem_cons.1 finite
    obtain ⟨_ | name, v⟩ := m
    · contradiction
    · unfold split at parted
      split at parted
      · split at parted
        · contradiction
        · obtain ⟨kind, -, parted⟩ := Json.of_bind_ok parted
          exact ih rest parted
      · split at parted
        · obtain ⟨⟨kind, behind⟩, parts, parted⟩ := Json.of_bind_ok parted
          obtain ⟨-, rfl⟩ := Prod.mk.inj (Except.ok.inj parted)
          exact List.forall_mem_cons.2 ⟨head, ih rest parts⟩
        · contradiction

theorem writable_ofJson {v : Json} {e : Event} (finite : v.Finite) (decoded : ofJson v = .ok e) : e.Writable := by
  unfold ofJson at decoded
  split at decoded
  case h_1 => contradiction
  case h_2 members closed =>
    cases finite with
    | object _ each =>
      obtain ⟨⟨tag, others⟩, parted, decoded⟩ := Json.of_bind_ok decoded
      dsimp only at decoded
      cases closed with
      | false => contradiction
      | true =>
        cases tag with
        | none => contradiction
        | some tag =>
          refine writable_ofContent (.object _ fun m mem => ?_) decoded
          obtain ⟨n, member, rfl⟩ := List.mem_map.1 mem
          exact finite_split each parted n member
  case h_3 => contradiction
  case h_4 first rest closed =>
    cases finite with
    | array _ each =>
      obtain ⟨tag, -, decoded⟩ := Json.of_bind_ok decoded
      split at decoded
      · exact writable_ofContent (.array _ (List.forall_mem_cons.1 each).2) decoded
      · contradiction
  case h_5 => contradiction

end Event

namespace Sample

/-- A sample as a text can hold it. -/
structure Writable (x : Sample) : Prop where
  value : x.value.isFinite = true ∨ x.value = notANumber
  time : x.time.Proper

/-- The doubles in a sample. -/
def doubles (x : Sample) : List Float :=
  [x.value]

theorem float_notANumber : Json.float notANumber = .null :=
  if_neg (by decide +kernel)

theorem decodeOption_value {x : Sample} (writable : x.Writable) :
    ∃ a, Json.decodeOption Json.decodeFloat (.float x.value) = .ok a ∧ a.getD notANumber = x.value := by
  rcases writable.value with finite | none
  · exact ⟨some x.value, Json.decodeOption_float (a := some x.value) fun y mem => Option.some.inj mem ▸ finite, rfl⟩
  · refine ⟨Option.none, ?_, none.symm⟩
    rw [none, float_notANumber]
    exact Json.decodeOption.eq_1 _

theorem ofJson_toJson {x : Sample} (writable : x.Writable) (now : Timestamp) : ofJson now x.toJson = .ok x := by
  have time := Timestamp.ofJson_toJson writable.time
  obtain ⟨a, read, value⟩ := decodeOption_value writable
  have draft : schema.decode .direct {} x.toJson = .ok ({
      metricKey := some x.metricKey, value := some x.value, time := some x.time }, .named) := by
    refine (Json.Schema.decode_record rfl (by decide)).trans ?_
    simp [Json.Schema.putAll, schema, read, value, time, Json.text, Json.decodeText, Except.map, bind, Except.bind]
  rw [ofJson, draft]
  rfl

theorem legible_toJson {x : Sample} (exact : ∀ y ∈ x.doubles, (Json.float y).ReadsBack) : x.toJson.Legible := by
  have value := Json.legible_float (exact x.value List.mem_cons_self)
  refine Json.legible_record fun m mem => ?_
  simp only [List.mem_cons, List.not_mem_nil, or_false] at mem
  rcases mem with rfl | rfl | rfl
  · exact .string _
  · exact value
  · exact .string _

structure Draft.Writable (d : Draft) : Prop where
  value : ∀ y ∈ d.value, y.isFinite = true ∨ y = notANumber
  time : ∀ t ∈ d.time, t.Proper

theorem schema_put {name : String} {v : Json} {d d' : Draft} (finite : v.Finite) (writable : d.Writable)
    (put : schema.put name v d = .ok d') : d'.Writable := by
  obtain ⟨value, time⟩ := writable
  unfold schema at put
  dsimp only at put
  split at put <;> obtain ⟨a, decoded, rfl⟩ := Json.of_map_ok put
  · exact ⟨value, time⟩
  · refine ⟨fun y mem => ?_, time⟩
    obtain rfl := Option.some.inj mem
    cases a with
    | none => exact .inr rfl
    | some y => exact .inl (Json.decodeOption_isFinite finite decoded y rfl)
  · exact ⟨value, fun t mem => Option.some.inj mem ▸ Timestamp.proper_ofJson decoded⟩

/-- A sample that is decoded alike at every moment carries its own time. -/
theorem writable_ofJson {v : Json} {x : Sample} (finite : v.Finite) (dated : ∀ now, ofJson now v = .ok x) : x.Writable := by
  obtain ⟨⟨d, form⟩, drafted, -⟩ := Json.of_bind_ok (dated default)
  have writable : d.Writable :=
    Json.Schema.decode_induct (fun _ _ _ _ => schema_put) finite ⟨by simp, by simp⟩ drafted
  have read : ∀ now, ∃ y, d.value = some y ∧ x.value = y ∧ x.time = d.time.getD now := by
    intro now
    obtain ⟨⟨d', form'⟩, again, finished⟩ := Json.of_bind_ok (dated now)
    obtain ⟨rfl, rfl⟩ := Prod.mk.inj (Except.ok.inj (drafted.symm.trans again))
    obtain ⟨key, -, finished⟩ := Json.of_bind_ok finished
    obtain ⟨y, present, finished⟩ := Json.of_bind_ok finished
    obtain rfl := Except.ok.inj finished
    exact ⟨y, Json.of_required_ok present, rfl, rfl⟩
  obtain ⟨y, value, rfl, -⟩ := read default
  refine ⟨writable.value _ value, ?_⟩
  cases time : d.time with
  | some t =>
    obtain ⟨-, -, -, same⟩ := read default
    rw [same, time]
    exact writable.time t time
  | none =>
    obtain ⟨-, -, -, first⟩ := read { seconds := 0 }
    obtain ⟨-, -, -, second⟩ := read { seconds := 1 }
    rw [time] at first second
    exact absurd (first.symm.trans second) (by decide)

end Sample

/-- Whatever text a rule, an event or a sample with its own time is decoded from, the same is decoded again once it is
written, given that its finite doubles read back. A sample has its own time if it does not matter when it is read. -/
theorem decode_stable :
    (∀ s r, Json.decodeWhole Rule.ofJson s = .ok r → (∀ x ∈ r.doubles, (Json.float x).ReadsBack) →
      Json.decodeWhole Rule.ofJson r.toJson.write = .ok r) ∧
    (∀ s e, Json.decodeWhole Event.ofJson s = .ok e → (∀ x ∈ e.doubles, (Json.float x).ReadsBack) →
      Json.decodeWhole Event.ofJson e.toJson.write = .ok e) ∧
    (∀ s x, (∀ now, Json.decodeWhole (Sample.ofJson now) s = .ok x) → (∀ y ∈ x.doubles, (Json.float y).ReadsBack) →
      ∀ now, Json.decodeWhole (Sample.ofJson now) x.toJson.write = .ok x) := by
  refine ⟨fun s r decoded exact => ?rule, fun s e decoded exact => ?event, fun s x decoded exact now => ?sample⟩
  case rule =>
    rw [(Rule.legible_toJson exact).readsBack.decodeWhole]
    exact Rule.ofJson_toJson (Rule.writable_ofJson (Json.finite_read s) (Json.of_decodeWhole decoded))
  case event =>
    rw [(Event.legible_toJson exact).readsBack.decodeWhole]
    exact Event.ofJson_toJson (Event.writable_ofJson (Json.finite_read s) (Json.of_decodeWhole decoded))
  case sample =>
    rw [(Sample.legible_toJson exact).readsBack.decodeWhole]
    have dated := fun now => Json.of_decodeWhole (decoded now)
    exact Sample.ofJson_toJson (Sample.writable_ofJson (Json.finite_read s) dated) now

/-- Lists of fields, an operator that is not supported and stands between blanks, and no number for a value. -/
theorem decode_stable_lists :
    (let r : Rule := {
      id := "r", name := "n", metricKey := "m", operator := .unsupported " above ", threshold := some 90,
      severity := .critical }
    Json.decodeWhole Rule.ofJson r.toJson.write = .ok r) ∧
    (let e : Event := .resolved "a" "r" { seconds := 1700000000 } .ruleChanged
    Json.decodeWhole Event.ofJson e.toJson.write = .ok e) ∧
    (let x : Sample := { metricKey := "m", value := Sample.notANumber, time := { seconds := 1700000000 } }
    ∀ now, Json.decodeWhole (Sample.ofJson now) x.toJson.write = .ok x) := by
  obtain ⟨rules, events, samples⟩ := decode_stable
  refine ⟨?rule, ?event, ?sample⟩
  case rule =>
    intro r
    have decoded : Json.decodeWhole Rule.ofJson "[\"r\", \"n\", \"m\", \" above \", 90, \"CRITICAL\"]" = .ok r := by
      decide +kernel
    refine rules _ r decoded fun x mem => ?_
    obtain rfl : x = 90 := List.mem_singleton.1 mem
    unfold Json.ReadsBack
    rfl
  case event =>
    intro e
    have decoded : Json.decodeWhole Event.ofJson
        "[\"ALERT_RESOLVED\", \"a\", \"r\", \"2023-11-14T23:13:20+01:00\", \"rule_changed\"]" = .ok e := by
      decide +kernel
    exact events _ e decoded fun x mem => absurd mem List.not_mem_nil
  case sample =>
    intro x
    have legible : (Json.list [.text "m", .null, .text "2023-11-14T22:13:20Z"]).Legible := by
      refine .array fun v mem => ?_
      simp only [List.mem_cons, List.not_mem_nil, or_false] at mem
      rcases mem with rfl | rfl | rfl
      · exact .string _
      · exact .null
      · exact .string _
    have time : Timestamp.read? "2023-11-14T22:13:20Z" = some { seconds := 1700000000 } := by decide +kernel
    refine samples _ x (fun now => (legible.readsBack.decodeWhole _).trans ?_) fun y mem => ?_
    · simp [Sample.ofJson, Sample.schema, Json.Schema.decode, Json.list, Json.Schema.putItems, Json.text, Json.decodeText,
        Json.decodeOption, Timestamp.ofJson, time, Except.map, bind, Except.bind, Json.required, pure, Except.pure, x]
    · obtain rfl : y = Sample.notANumber := List.mem_singleton.1 mem
      rw [Sample.float_notANumber]
      unfold Json.ReadsBack
      rfl

end ThresholdAlerts
