import ThresholdAlerts.Ingest.Reader
/-! What is read from an input. Main statement: which metrics and values are read does not depend on when the lines
are, so that reading them one by one comes to the same as reading all of them at once. -/
namespace ThresholdAlerts

def Sample.reading (x : Sample) : String × Float :=
  (x.metricKey, x.value)

namespace SampleReader

/-- The samples of some lines, up to the first line that is no text, all read at one moment. -/
def samples (now : Timestamp) (lines : List (List UInt8)) : List Sample :=
  (readAll now lines 0).1.filterMap Except.toOption

def readings (lines : List (List UInt8)) : List (String × Float) :=
  (samples default lines).map Sample.reading

/-- What the next item is to the readings: the first of them, a line without one, or the end of all. -/
inductive Reads (lines : List (List UInt8)) (r : SampleReader) : Option (Except IngestError Sample) → Prop
  | sample {x : Sample} (rest : readings lines = x.reading :: readings r.lines) : Reads lines r (some (.ok x))
  | skipped {e : IngestError} (mild : e.isFatal = false) (rest : readings lines = readings r.lines) :
      Reads lines r (some (.error e))
  | broken {e : IngestError} (fatal : e.isFatal = true) (empty : readings lines = []) : Reads lines r (some (.error e))
  | ended (empty : readings lines = []) : Reads lines r none

end SampleReader

section Readings

variable {now now' : Timestamp} {number number' : Nat} {line : String} {bytes : List UInt8}
  {lines : List (List UInt8)}

theorem Json.decodeWhole_map {α β : Type} (decode : Json → Except Fault α) (f : α → β) (s : String) :
    decodeWhole (fun v => (decode v).map f) s = (decodeWhole decode s).map f := by
  rw [decodeWhole, decodeWhole]
  obtain ⟨v, alone⟩ := read s
  dsimp only
  cases decode v with
  | error e => rfl
  | ok a => cases alone <;> rfl

/-- The moment of reading is the time of a sample that tells none, and nothing else comes of it. -/
theorem Sample.exists_decoder : ∃ decode : Json → Except Json.Fault (String × Float × Option Timestamp),
    ∀ now, ofJson now = fun v => (decode v).map fun p =>
      { metricKey := p.1, value := p.2.1, time := p.2.2.getD now } := by
  refine ⟨fun v => do
    let decoded ← schema.decode .direct {} v
    let metricKey ← Json.required decoded.2 "metric_key" decoded.1.metricKey
    let value ← Json.required decoded.2 "value" decoded.1.value
    return (metricKey, value, decoded.1.time), fun now => funext fun v => ?_⟩
  dsimp only
  rw [ofJson]
  cases schema.decode .direct {} v with
  | error e => rfl
  | ok decoded =>
    obtain ⟨d, form⟩ := decoded
    change (Json.required form "metric_key" d.metricKey >>= _) =
      (Json.required form "metric_key" d.metricKey >>= _).map _
    cases Json.required form "metric_key" d.metricKey with
    | error e => rfl
    | ok metricKey =>
      change (Json.required form "value" d.value >>= _) = (Json.required form "value" d.value >>= _).map _
      cases Json.required form "value" d.value <;> rfl

namespace SampleReader

theorem readLine_cases (line : String) : (∀ now number, readLine now number line = none) ∨
    (∃ reason, ∀ now number, readLine now number line = some (.error (.malformed number reason))) ∨
    ∃ reading, ∀ now number, ∃ x : Sample, readLine now number line = some (.ok x) ∧ x.reading = reading := by
  obtain ⟨decode, same⟩ := Sample.exists_decoder
  simp only [readLine, same, Json.decodeWhole_map]
  cases (Text.trim line).isEmpty with
  | true => exact .inl fun _ _ => rfl
  | false =>
    cases Json.decodeWhole decode (Text.trim line) with
    | error fault => exact .inr (.inl ⟨fault.message, fun _ _ => rfl⟩)
    | ok parts =>
      obtain ⟨metricKey, value, time⟩ := parts
      exact .inr (.inr ⟨(metricKey, value), fun now number => ⟨_, rfl, rfl⟩⟩)

theorem readings_readAll (now : Timestamp) (lines : List (List UInt8)) (number : Nat) :
    ((readAll now lines number).1.filterMap Except.toOption).map Sample.reading = readings lines := by
  rw [readings, samples]
  generalize 0 = number'
  induction lines generalizing number number' with
  | nil => rfl
  | cons bytes lines ih =>
    rw [readAll, readAll]
    cases Text.decodeUtf8 (chomp bytes) with
    | error fault => rfl
    | ok line =>
      dsimp only
      rw [List.filterMap_append, List.filterMap_append, List.map_append, List.map_append, ih]
      rcases readLine_cases line with blank | ⟨reason, malformed⟩ | ⟨reading, good⟩
      · rw [blank, blank]
      · rw [malformed, malformed]
        rfl
      · obtain ⟨x, read, same⟩ := good now (number + 1)
        obtain ⟨x', read', same'⟩ := good default (number' + 1)
        rw [read, read']
        exact congrArg (· :: _) (same.trans same'.symm)

theorem readings_cons {item : Option (Except IngestError Sample)} (text : Text.decodeUtf8 (chomp bytes) = .ok line)
    (read : readLine now (number + 1) line = item) (lines : List (List UInt8)) :
    readings (bytes :: lines) = (item.toList.filterMap Except.toOption).map Sample.reading ++ readings lines := by
  rw [← readings_readAll now (bytes :: lines) number, readAll, text]
  dsimp only
  rw [read, List.filterMap_append, List.map_append, readings_readAll]

theorem Reads.congr {lines' : List (List UInt8)} {r : SampleReader} {item : Option (Except IngestError Sample)}
    (reads : Reads lines r item) (same : readings lines' = readings lines) : Reads lines' r item := by
  cases reads with
  | sample rest => exact .sample (same.trans rest)
  | skipped mild rest => exact .skipped mild (same.trans rest)
  | broken fatal empty => exact .broken fatal (same.trans empty)
  | ended empty => exact .ended (same.trans empty)

/-- Reading on from line to line. -/
theorem reads_next (r : SampleReader) (now : Timestamp) : Reads r.lines (r.next now).1 (r.next now).2 := by
  obtain ⟨lines, number⟩ := r
  rw [next]
  dsimp only
  induction lines generalizing number with
  | nil => exact .ended rfl
  | cons bytes lines ih =>
    rw [nextFrom]
    cases text : Text.decodeUtf8 (chomp bytes) with
    | error fault =>
      refine .broken rfl ?_
      rw [readings, samples, readAll, text]
      rfl
    | ok line =>
      dsimp only
      rcases readLine_cases line with blank | ⟨reason, malformed⟩ | ⟨reading, good⟩
      · rw [blank]
        exact (ih (number + 1)).congr (readings_cons text (blank now (number + 1)) lines)
      · rw [malformed]
        exact .skipped rfl (readings_cons text (malformed now (number + 1)) lines)
      · obtain ⟨x, read, -⟩ := good now (number + 1)
        rw [read]
        exact .sample (readings_cons text read lines)

end SampleReader

end Readings

end ThresholdAlerts
