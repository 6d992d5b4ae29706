import ThresholdAlerts.Proofs.Encodings
import ThresholdAlerts.Proofs.Readings
/-! What a reader makes of an input. Its bytes arrive in chunks, and the reader may be asked at any time; while no line
is complete that holds anything, the asking waits. Main statement: whatever the chunks are and whenever the reader is
asked, its answers are the items of the lines of the whole input, in order, up to the first line that is no text. -/
namespace ThresholdAlerts

/-! ### What is in an input -/

namespace Input

/-- A line that was ended by a line feed, without a carriage return before that. -/
def dropReturn (line : List UInt8) : List UInt8 :=
  if line.getLast? = some 0x0D then line.dropLast else line

/-- The lines of an input. What comes after the last line feed is a line if it is not empty. -/
def lines (bytes : List UInt8) : List (List UInt8) :=
  let parts := bytes.splitOn 0x0A
  parts.dropLast.map dropReturn ++ parts.getLast?.toList.filter (· ≠ [])

/-- The texts of some lines, up to the first line that is no UTF-8. -/
def texts : List (List UInt8) → List String
  | [] => []
  | line :: rest =>
    match String.fromUTF8? line.toByteArray with
    | some text => text :: texts rest
    | none => []

/-- The lines that are not blank, trimmed and with their positions; that of the first line is `first`. -/
def entries (first : Nat) (lines : List (List UInt8)) : List (String × Nat) :=
  (((texts lines).map Text.trim).zipIdx first).filter fun e => !e.1.isEmpty

/-- All lines are text. -/
def IsText (lines : List (List UInt8)) : Prop :=
  ∀ line ∈ lines, line.toByteArray.IsValidUTF8

instance (lines : List (List UInt8)) : Decidable (IsText lines) :=
  inferInstanceAs (Decidable (∀ line ∈ lines, line.toByteArray.IsValidUTF8))

/-- The item of a line that is not blank, read at a moment. -/
def item (now : Timestamp) (e : String × Nat) : Except IngestError Sample :=
  match Json.decodeWhole (Sample.ofJson now) e.1 with
  | .ok sample => .ok sample
  | .error fault => .error (.malformed e.2 fault.message)

section Lines

variable {line : List UInt8} {lines : List (List UInt8)} {first : Nat} {text : String}

theorem chomp_ended (line : List UInt8) : chomp (line ++ [0x0A]) = dropReturn line := by
  obtain rfl | ⟨before, b, rfl⟩ := List.eq_nil_or_concat line
  · rfl
  · rw [List.concat_eq_append, chomp, dropReturn, List.getLast?_concat, List.dropLast_concat, List.reverse_concat,
      List.reverse_concat]
    by_cases returns : b = 0x0D
    · rw [returns, if_pos rfl]
      exact List.reverse_reverse before
    · rw [if_neg fun same => returns (Option.some.inj same)]
      split
      next back => exact absurd (List.cons.inj (List.cons.inj back).2).1 returns
      next kept back =>
        rw [← (List.cons.inj back).2, ← List.reverse_concat, List.reverse_reverse]
      next other => exact absurd rfl (other _)

theorem chomp_unended (unended : 0x0A ∉ line) : chomp line = line := by
  have unended : 0x0A ∉ line.reverse := fun there => unended (List.mem_reverse.mp there)
  rw [chomp]
  split
  next back => exact absurd (back ▸ List.mem_cons_self) unended
  next back => exact absurd (back ▸ List.mem_cons_self) unended
  next => rfl

theorem modifyHead_nil_append (parts : List (List UInt8)) : parts.modifyHead ([].reverse ++ ·) = parts := by
  cases parts <;> rfl

/-- Bytes are parted where the input is split. -/
theorem takeLines_splitOn (line bytes : List UInt8) (unended : 0x0A ∉ line) :
    ∃ ended last, (bytes.splitOn 0x0A).modifyHead (line.reverse ++ ·) = ended ++ [last] ∧ 0x0A ∉ last ∧
      takeLines line bytes = (ended.map (· ++ [0x0A]), last.reverse) := by
  induction bytes generalizing line with
  | nil =>
    refine ⟨[], line.reverse, ?_, ?_, ?_⟩
    · simp
    · simpa using unended
    · simp [takeLines]
  | cons b bytes ih =>
    rw [List.splitOn_cons_eq_if_modifyHead, takeLines]
    by_cases ends : b = 0x0A
    · obtain ⟨ended, last, split, unended, taken⟩ := ih [] (by simp)
      refine ⟨line.reverse :: ended, last, ?_, unended, ?_⟩
      · rw [modifyHead_nil_append] at split
        rw [ends, if_pos BEq.rfl, List.modifyHead_cons, List.append_nil, List.cons_append, ← split]
      · rw [if_pos ends, taken, ends]
        simp
    · obtain ⟨ended, last, split, unended, taken⟩ := ih (b :: line) (by simp [unended, Ne.symm ends])
      refine ⟨ended, last, ?_, unended, ?_⟩
      · rw [if_neg (by simpa using ends), List.modifyHead_modifyHead, ← split]
        congr 1
        funext part
        simp
      · rw [if_neg ends, taken]

theorem map_chomp_inputLines (bytes : List UInt8) : (inputLines bytes).map chomp = Input.lines bytes := by
  obtain ⟨ended, last, split, unended, taken⟩ := takeLines_splitOn [] bytes (by simp)
  rw [modifyHead_nil_append] at split
  have each : (ended.map (· ++ [0x0A])).map chomp = ended.map dropReturn := by
    rw [List.map_map]
    exact List.map_congr_left fun line _ => chomp_ended line
  rw [inputLines, taken, Input.lines, split, List.dropLast_concat, List.getLast?_concat, ← each]
  dsimp only
  by_cases empty : last = []
  · subst empty
    simp
  · rw [if_neg (by simpa using empty), List.map_append, List.reverse_reverse, List.map_singleton,
      chomp_unended unended]
    simp [empty]

/-! ### Entries -/

theorem texts_cons_of_text (read : String.fromUTF8? line.toByteArray = some text) :
    texts (line :: lines) = text :: texts lines := by
  rw [texts, read]

theorem texts_cons_of_none (unread : String.fromUTF8? line.toByteArray = none) : texts (line :: lines) = [] := by
  rw [texts, unread]

theorem entries_cons_of_blank (first : Nat) (lines : List (List UInt8))
    (read : String.fromUTF8? line.toByteArray = some text)
    (blank : (Text.trim text).isEmpty = true) : entries first (line :: lines) = entries (first + 1) lines := by
  rw [entries, texts_cons_of_text read, List.map_cons, List.zipIdx_cons, List.filter_cons_of_neg]
  · rfl
  · simp [blank]

theorem entries_cons_of_filled (first : Nat) (lines : List (List UInt8))
    (read : String.fromUTF8? line.toByteArray = some text)
    (filled : (Text.trim text).isEmpty = false) :
    entries first (line :: lines) = (Text.trim text, first) :: entries (first + 1) lines := by
  rw [entries, texts_cons_of_text read, List.map_cons, List.zipIdx_cons, List.filter_cons_of_pos]
  · rfl
  · simp [filled]

theorem entries_cons_of_none (unread : String.fromUTF8? line.toByteArray = none) :
    entries first (line :: lines) = [] := by
  rw [entries, texts_cons_of_none unread]
  rfl

theorem isText_cons_of_text (read : String.fromUTF8? line.toByteArray = some text) :
    IsText (line :: lines) ↔ IsText lines := by
  have valid : line.toByteArray.IsValidUTF8 := by
    rw [← Text.fromUTF8?_eq_some_iff.mp read]
    exact text.isValidUTF8
  exact List.forall_mem_cons.trans (and_iff_right valid)

theorem not_isText_cons (unread : String.fromUTF8? line.toByteArray = none) : ¬ IsText (line :: lines) := by
  intro all
  have valid := all line List.mem_cons_self
  rw [String.fromUTF8?, dif_pos valid] at unread
  cases unread

end Lines

end Input

/-- A line that is read makes no error that ends the reading. -/
theorem Input.isFatal_item {now : Timestamp} {e : String × Nat} {error : IngestError}
    (wrong : Input.item now e = .error error) : error.isFatal = false := by
  rw [Input.item] at wrong
  split at wrong
  next => cases wrong
  next fault read =>
    obtain rfl := Except.error.inj wrong
    rfl

/-! ### A reader that is asked -/

namespace SampleReader

/-- What the reader was asked, what it answered, and how many lines it had counted then. -/
structure Answer where
  moment : Timestamp
  item : Option (Except IngestError Sample)
  lineNumber : Nat

/-- The answers to those who ask one after the other. -/
def answers (r : SampleReader) : List Timestamp → List Answer
  | [] => []
  | now :: later =>
    let (r, item) := r.next now
    { moment := now, item, lineNumber := r.lineNumber } :: r.answers later

def extend (r : SampleReader) (more : List (List UInt8)) : SampleReader :=
  { r with lines := r.lines ++ more }

/-- The entries that are still to be read. -/
def pending (r : SampleReader) : List (String × Nat) :=
  Input.entries (r.lineNumber + 1) (r.lines.map chomp)

/-- Whether all lines that are left are text. -/
def IsText (r : SampleReader) : Prop :=
  Input.IsText (r.lines.map chomp)

/-- All lines, those that were read and those that are left. -/
def total (r : SampleReader) : Nat :=
  r.lineNumber + r.lines.length

/-- What the reader makes of the next entry, of the end, or of a line that is no text. -/
inductive Goes (r : SampleReader) (now : Timestamp) : SampleReader × Option (Except IngestError Sample) → Prop
  | entry {r' : SampleReader} {e} (pending : r.pending = e :: r'.pending) (counted : r'.lineNumber = e.2)
      (same : r'.IsText ↔ r.IsText) (total : r'.total = r.total) : Goes r now (r', some (Input.item now e))
  | ended {r' : SampleReader} (read : r.pending = []) (text : r.IsText) (left : r'.lines = [])
      (counted : r'.lineNumber = r.total) : Goes r now (r', none)
  | broken {r' reason} (read : r.pending = []) (text : ¬ r.IsText) : Goes r now (r', some (.error (.io reason)))

section Reader

variable {now : Timestamp} {r : SampleReader}

theorem readLine_eq (now : Timestamp) (number : Nat) (line : String) :
    readLine now number line =
      if (Text.trim line).isEmpty then none else some (Input.item now (Text.trim line, number)) := by
  rw [readLine, Input.item]
  dsimp only
  split
  · rfl
  · cases Json.decodeWhole (Sample.ofJson now) (Text.trim line) <;> rfl

theorem total_cons (bytes : List UInt8) (lines : List (List UInt8)) (number : Nat) :
    total { lines, lineNumber := number + 1 } = total { lines := bytes :: lines, lineNumber := number } := by
  rw [total, total, List.length_cons]
  dsimp only
  omega

/-- A line that is passed over makes no difference to what comes next. -/
theorem Goes.congr {r₀ : SampleReader} {x : SampleReader × Option (Except IngestError Sample)} (goes : r.Goes now x)
    (pending : r₀.pending = r.pending) (text : r₀.IsText ↔ r.IsText) (total : r.total = r₀.total) :
    r₀.Goes now x := by
  cases goes with
  | entry next counted same left => exact .entry (pending.trans next) counted (same.trans text.symm) (left.trans total)
  | ended read all left counted => exact .ended (pending.trans read) (text.mpr all) left (counted.trans total)
  | broken read not => exact .broken (pending.trans read) fun all => not (text.mp all)

theorem goes_next (r : SampleReader) (now : Timestamp) : r.Goes now (r.next now) := by
  obtain ⟨lines, number⟩ := r
  rw [next]
  dsimp only
  induction lines generalizing number with
  | nil => exact .ended rfl (List.forall_mem_nil _) rfl rfl
  | cons bytes lines ih =>
    have reading := Text.toOption_decodeUtf8 (chomp bytes)
    rw [nextFrom]
    cases read : Text.decodeUtf8 (chomp bytes) with
    | error fault =>
      rw [read] at reading
      exact .broken (Input.entries_cons_of_none reading.symm) (Input.not_isText_cons reading.symm)
    | ok line =>
      rw [read] at reading
      have text : String.fromUTF8? (chomp bytes).toByteArray = some line := reading.symm
      dsimp only
      rw [readLine_eq]
      cases blank : (Text.trim line).isEmpty with
      | true =>
        have passed := Input.entries_cons_of_blank (number + 1) (lines.map chomp) text blank
        exact (ih (number + 1)).congr passed (Input.isText_cons_of_text text) (total_cons bytes lines number)
      | false =>
        have filled := Input.entries_cons_of_filled (number + 1) (lines.map chomp) text blank
        exact .entry filled rfl (Input.isText_cons_of_text text).symm (total_cons bytes lines number)

/-- An item is found whatever lines are behind it. -/
theorem next_extend_of_some {r' : SampleReader} {item : Except IngestError Sample} (more : List (List UInt8))
    (found : r.next now = (r', some item)) : (r.extend more).next now = (r'.extend more, some item) := by
  obtain ⟨lines, number⟩ := r
  rw [next] at found ⊢
  dsimp only [extend] at found ⊢
  induction lines generalizing number with
  | nil => cases found
  | cons bytes lines ih =>
    rw [nextFrom] at found
    rw [List.cons_append, nextFrom]
    cases read : Text.decodeUtf8 (chomp bytes) with
    | error fault =>
      rw [read] at found
      cases found
      rfl
    | ok line =>
      rw [read] at found
      dsimp only at found ⊢
      cases held : readLine now (number + 1) line with
      | some item' =>
        rw [held] at found
        cases found
        rfl
      | none =>
        rw [held] at found
        exact ih (number + 1) found

/-- With no item found the lines are passed over, at any time. -/
theorem next_extend_of_none {r' : SampleReader} (more : List (List UInt8)) (passed : r.next now = (r', none))
    (now' : Timestamp) : (r.extend more).next now' = (r'.extend more).next now' := by
  obtain ⟨lines, number⟩ := r
  rw [next] at passed
  dsimp only at passed
  induction lines generalizing number with
  | nil =>
    cases passed
    rfl
  | cons bytes lines ih =>
    rw [nextFrom] at passed
    cases read : Text.decodeUtf8 (chomp bytes) with
    | error fault =>
      rw [read] at passed
      cases passed
    | ok line =>
      rw [read] at passed
      dsimp only at passed
      rw [readLine_eq] at passed
      cases blank : (Text.trim line).isEmpty with
      | false =>
        rw [blank] at passed
        cases passed
      | true =>
        rw [blank] at passed
        rw [← ih (number + 1) passed, next, next, extend, extend]
        dsimp only
        rw [List.cons_append, nextFrom, read]
        dsimp only
        rw [readLine_eq, blank]
        rfl

theorem answers_congr {r' : SampleReader} (same : ∀ now, r.next now = r'.next now) (moments : List Timestamp) :
    r.answers moments = r'.answers moments := by
  cases moments with
  | nil => rfl
  | cons now later => rw [answers, answers, same now]

theorem moments_answers (r : SampleReader) (moments : List Timestamp) :
    (r.answers moments).map (·.moment) = moments := by
  induction moments generalizing r with
  | nil => rfl
  | cons now later ih => exact congrArg (now :: ·) (ih _)

/-- What the answer is that comes after `k` others. -/
structure Tells (r : SampleReader) (k : Nat) (a : Answer) : Prop where
  entry : ∀ e, r.pending[k]? = some e → a.item = some (Input.item a.moment e) ∧ a.lineNumber = e.2
  ended : r.IsText → r.pending.length ≤ k → a.item = none ∧ a.lineNumber = r.total
  broken : ¬ r.IsText → r.pending.length = k → ∃ reason, a.item = some (.error (.io reason))

theorem Goes.first {r' : SampleReader} {item : Option (Except IngestError Sample)} (goes : r.Goes now (r', item)) :
    r.Tells 0 { moment := now, item, lineNumber := r'.lineNumber } := by
  cases goes with
  | @entry r' e next counted same total =>
    refine ⟨fun e' here => ?_, fun _ none => ?_, fun _ none => ?_⟩
    · rw [next] at here
      obtain rfl := Option.some.inj here
      exact ⟨rfl, counted⟩
    · simp [next] at none
    · simp [next] at none
  | ended read text left counted =>
    exact ⟨fun e here => by simp [read] at here, fun _ _ => ⟨rfl, counted⟩, fun not => absurd text not⟩
  | broken read text =>
    exact ⟨fun e here => by simp [read] at here, fun all => absurd all text, fun _ _ => ⟨_, rfl⟩⟩

theorem Goes.later {r' : SampleReader} {item : Option (Except IngestError Sample)} {k : Nat} {a : Answer}
    (goes : r.Goes now (r', item)) (tells : r'.Tells k a) : r.Tells (k + 1) a := by
  cases goes with
  | @entry r' e next counted same total =>
    refine ⟨fun e' here => ?_, fun text few => ?_, fun broken few => ?_⟩
    · rw [next, List.getElem?_cons_succ] at here
      exact tells.entry e' here
    · rw [next, List.length_cons] at few
      rw [← total]
      exact tells.ended (same.mpr text) (Nat.le_of_succ_le_succ few)
    · rw [next, List.length_cons] at few
      exact tells.broken (fun text => broken (same.mp text)) (Nat.succ.inj few)
  | ended read text left counted =>
    have none : r'.pending = [] := by rw [pending, left]; rfl
    have all : r'.IsText := by
      rw [IsText, left]
      exact List.forall_mem_nil _
    have total : r'.total = r.total := by rw [SampleReader.total, left, counted, List.length_nil, Nat.add_zero]
    refine ⟨fun e here => by simp [read] at here, fun _ _ => ?_, fun not => absurd text not⟩
    rw [← total]
    exact tells.ended all (by simp [none])
  | broken read text =>
    exact ⟨fun e here => by simp [read] at here, fun all => absurd all text, fun _ none => by simp [read] at none⟩

theorem tells_answers {moments : List Timestamp} {k : Nat} {a : Answer}
    (given : (r.answers moments)[k]? = some a) : r.Tells k a := by
  induction moments generalizing r k with
  | nil => simp [answers] at given
  | cons now later ih =>
    have goes := r.goes_next now
    rw [answers] at given
    generalize r.next now = x at goes given
    obtain ⟨r', item⟩ := x
    cases k with
    | zero =>
      obtain rfl := Option.some.inj given
      exact goes.first
    | succ k => exact goes.later (ih given)

end Reader

end SampleReader

/-! ### An input that arrives -/

/-- What happens at an input before its end. -/
inductive Arrival where
  | chunk (bytes : List UInt8)
  | asked (now : Timestamp)

def Arrival.bytes : Arrival → List UInt8
  | .chunk bytes => bytes
  | .asked _ => []

/-- What there is of an input: a reader of the lines that are complete, and the start of the next one, whose bytes are
kept in reverse order. -/
structure Intake where
  reader : SampleReader := { lines := [] }
  line : List UInt8 := []

namespace Intake

def take (i : Intake) (bytes : List UInt8) : Intake :=
  let (lines, line) := takeLines i.line bytes
  { reader := i.reader.extend lines, line }

/-- At the end of the input the last line is complete, if there is one. -/
def close (i : Intake) : SampleReader :=
  i.reader.extend (if i.line.isEmpty then [] else [i.line.reverse])

/-- The answers to all who ask. Whoever asks before the end of the input, when no line is complete that holds
anything, gets none. -/
def answers (i : Intake) : List Arrival → List Timestamp → List SampleReader.Answer
  | [], later => i.close.answers later
  | .chunk bytes :: rest, later => (i.take bytes).answers rest later
  | .asked now :: rest, later =>
    match i.reader.next now with
    | (reader, some item) =>
      { moment := now, item := some item, lineNumber := reader.lineNumber } ::
        answers { i with reader } rest later
    | (reader, none) => answers { i with reader } rest later

theorem takeLines_append (line bytes rest : List UInt8) :
    takeLines line (bytes ++ rest) =
      ((takeLines line bytes).1 ++ (takeLines (takeLines line bytes).2 rest).1,
        (takeLines (takeLines line bytes).2 rest).2) := by
  induction bytes generalizing line with
  | nil => rfl
  | cons b bytes ih =>
    rw [List.cons_append, takeLines, takeLines]
    by_cases ends : b = 0x0A
    · rw [if_pos ends, if_pos ends, ih]
      rfl
    · rw [if_neg ends, if_neg ends, ih]

theorem take_take (i : Intake) (bytes rest : List UInt8) : (i.take bytes).take rest = i.take (bytes ++ rest) := by
  simp only [take, SampleReader.extend, takeLines_append, List.append_assoc]

/-- The lines that all the rest of an input adds. -/
def added (line bytes : List UInt8) : List (List UInt8) :=
  let (lines, left) := takeLines line bytes
  lines ++ if left.isEmpty then [] else [left.reverse]

theorem close_take (i : Intake) (bytes : List UInt8) : (i.take bytes).close = i.reader.extend (added i.line bytes) := by
  simp only [close, take, added, SampleReader.extend, List.append_assoc]
  rfl

theorem take_nil (i : Intake) : i.take [] = i := by
  simp only [take, takeLines, SampleReader.extend, List.append_nil]

/-- Whatever the chunks are and whenever it is asked, the reader answers as if it had had the whole input. -/
theorem answers_eq (i : Intake) (arrivals : List Arrival) (later : List Timestamp) :
    i.answers arrivals later =
      (i.take (arrivals.flatMap Arrival.bytes)).close.answers ((i.answers arrivals later).map (·.moment)) := by
  induction arrivals generalizing i with
  | nil =>
    rw [answers, SampleReader.moments_answers, List.flatMap_nil, take_nil]
  | cons a rest ih =>
    cases a with
    | chunk bytes =>
      rw [answers, List.flatMap_cons, Arrival.bytes, ← take_take]
      exact ih _
    | asked now =>
      obtain ⟨reader, line⟩ := i
      have sofar reader := ih { reader, line }
      simp only [close_take] at sofar
      rw [answers, List.flatMap_cons, Arrival.bytes, List.nil_append, close_take]
      cases found : reader.next now with
      | mk reader' item =>
        cases item with
        | some item =>
          dsimp only
          rw [List.map_cons, SampleReader.answers, SampleReader.next_extend_of_some _ found]
          exact congrArg _ (sofar reader')
        | none =>
          dsimp only
          rw [SampleReader.answers_congr (SampleReader.next_extend_of_none _ found)]
          exact sofar reader'

theorem suffix_moments (i : Intake) (arrivals : List Arrival) (later : List Timestamp) :
    later <:+ (i.answers arrivals later).map (·.moment) := by
  induction arrivals generalizing i with
  | nil => exact ⟨[], (i.close.moments_answers later).symm⟩
  | cons a rest ih =>
    cases a with
    | chunk bytes => exact ih _
    | asked now =>
      rw [answers]
      split
      next reader item found => exact (ih _).trans (List.suffix_cons ..)
      next reader found => exact ih _

theorem added_new (bytes : List UInt8) : added [] bytes = inputLines bytes := by
  rw [added, inputLines]
  obtain ⟨lines, left⟩ := takeLines [] bytes
  cases left with
  | nil => exact List.append_nil lines
  | cons b left => rfl

theorem close_take_new (bytes : List UInt8) : (take {} bytes).close = SampleReader.ofBytes bytes := by
  rw [close_take, added_new]
  rfl

theorem pending_ofBytes (bytes : List UInt8) :
    (SampleReader.ofBytes bytes).pending = Input.entries 1 (Input.lines bytes) := by
  rw [SampleReader.pending, SampleReader.ofBytes, Input.map_chomp_inputLines]

theorem isText_ofBytes (bytes : List UInt8) :
    (SampleReader.ofBytes bytes).IsText ↔ Input.IsText (Input.lines bytes) := by
  rw [SampleReader.IsText, SampleReader.ofBytes, Input.map_chomp_inputLines]

theorem total_ofBytes (bytes : List UInt8) : (SampleReader.ofBytes bytes).total = (Input.lines bytes).length := by
  rw [← Input.map_chomp_inputLines, List.length_map]
  exact Nat.zero_add _

/-- Whatever the chunks are and whenever it is asked, the answers of a reader are the items of the lines of the input,
one for each line that is not blank and none for the others, up to the first line that is no text. That gives an error
which ends the reading; without one nothing comes after the last item, and all lines are counted then. Whoever asks
after the end of the input is answered. -/
theorem answers_tell (arrivals : List Arrival) (later : List Timestamp) :
    let answers := answers {} arrivals later
    let lines := Input.lines (arrivals.flatMap Arrival.bytes)
    let entries := Input.entries 1 lines
    later <:+ answers.map (·.moment) ∧
      ∀ k a, answers[k]? = some a →
        (∀ e, entries[k]? = some e → a.item = some (Input.item a.moment e) ∧ a.lineNumber = e.2 ∧
          ∀ error, a.item = some (.error error) → error.isFatal = false) ∧
        (Input.IsText lines → entries.length ≤ k → a.item = none ∧ a.lineNumber = lines.length) ∧
        (¬ Input.IsText lines → entries.length = k →
          ∃ error, a.item = some (.error error) ∧ error.isFatal = true ∧ ∃ reason, error = .io reason) := by
  intro answers lines entries
  refine ⟨suffix_moments {} arrivals later, fun k a given => ?_⟩
  have whole := answers_eq {} arrivals later
  rw [close_take_new] at whole
  change (Intake.answers {} arrivals later)[k]? = some a at given
  rw [whole] at given
  obtain ⟨entry, ended, broken⟩ := SampleReader.tells_answers given
  rw [isText_ofBytes, pending_ofBytes] at ended broken
  rw [pending_ofBytes] at entry
  rw [total_ofBytes] at ended
  refine ⟨fun e here => ?_, ended, fun text last => ?_⟩
  · obtain ⟨item, counted⟩ := entry e here
    refine ⟨item, counted, fun error wrong => ?_⟩
    exact Input.isFatal_item (Option.some.inj (item.symm.trans wrong))
  · obtain ⟨reason, item⟩ := broken text last
    exact ⟨_, item, rfl, reason, rfl⟩

/-- A carriage return, a line of a blank, and a letter that is no sample, cut in the middle of the first line. -/
def cut : List Arrival :=
  [.chunk [0x0D], .asked default, .chunk [0x0A, 0x20, 0x0A, 0x78], .asked default]

/-- Behind two blank lines the third one gives the only item. -/
theorem answers_tell_cut :
    ∃ reason, (answers {} cut [default, default]).map (fun a => (a.item, a.lineNumber)) =
      [(some (.error (.malformed 3 reason)), 3), (none, 3)] := by
  obtain ⟨-, each⟩ := answers_tell cut [default, default]
  have two : (answers {} cut [default, default]).length = 2 := by decide +kernel
  have wrong : ∃ reason, ∀ now, Input.item now ("x", 3) = .error (.malformed 3 reason) := ⟨_, fun _ => rfl⟩
  obtain ⟨reason, wrong⟩ := wrong
  generalize answers {} cut [default, default] = given at each two
  match given, two with
  | [a, b], _ =>
    obtain ⟨item, counted, -⟩ := (each 0 a rfl).1 ("x", 3) (by decide +kernel)
    obtain ⟨item', counted'⟩ := (each 1 b rfl).2.1 (by decide +kernel) (by decide +kernel)
    have three : (Input.lines (cut.flatMap Arrival.bytes)).length = 3 := by decide +kernel
    exact ⟨reason, by rw [List.map_cons, List.map_singleton, item, counted, item', counted', wrong, three]⟩

end Intake

end ThresholdAlerts
