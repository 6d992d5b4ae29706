import Mathlib
import ThresholdAlerts.Json.Reader
import ThresholdAlerts.Json.Writer
/-! Reading what was written. A text spells a value if the reader, wherever a value may stand, comes out of the text
as if the value had been put there; a number is only known to be over with the character behind it. Main statement: the
text of a value whose numbers read back is read as that value. -/
namespace ThresholdAlerts.Json

/-- The value, written down, is read as itself. -/
def ReadsBack (v : Json) : Prop :=
  read v.write = (v, true)

/-- A value without a fault in it whose numbers read back. -/
inductive Legible : Json → Prop
  | null : Legible .null
  | bool (b : Bool) : Legible (.bool b)
  | number {n : JsonNumber} (alone : (Json.number n).ReadsBack) : Legible (.number n)
  | string (s : String) : Legible (.string (some s))
  | array {items : List Json} (items_legible : ∀ v ∈ items, Legible v) : Legible (.array items true)
  | object {members : List (Option String × Json)} (named : ∀ m ∈ members, m.1.isSome = true)
    (values : ∀ m ∈ members, Legible m.2) : Legible (.object members true)

namespace Reader

/-- The reader is where a value may stand. -/
structure Awaits (r : Reader) : Prop where
  mode : r.mode = .value ∨ r.mode = .firstItem
  takes : ∀ v, (r.place v).mode = .after

/-- The reader goes on like `p`, whatever may stand behind a value. -/
structure Settles (r p : Reader) : Prop where
  step : ∀ c, c = ',' ∨ c = ']' ∨ c = '}' → r.step c = p.step c
  finish : r.finish = p.finish

theorem Settles.refl (r : Reader) : r.Settles r :=
  ⟨fun _ _ => rfl, rfl⟩

theorem Settles.foldl_cons {r p : Reader} {c : Char} (settles : r.Settles p) (next : c = ',' ∨ c = ']' ∨ c = '}')
    (text : List Char) : (c :: text).foldl Reader.step r = text.foldl Reader.step (p.step c) := by
  rw [List.foldl_cons, settles.step c next]

end Reader

open Reader

/-- Wherever a value may stand, the text is read as `v`. -/
def Spells (text : List Char) (v : Json) : Prop :=
  ∀ r : Reader, r.Awaits → (text.foldl step r).Settles (r.place v)

section Places

variable {r : Reader} {v : Json} {c : Char} {m : Mode}

/-- Where a value goes does not depend on the mode. -/
theorem place_mode (r : Reader) (m : Mode) (v : Json) : { r with mode := m }.place v = r.place v := by
  unfold place
  dsimp only
  split <;> simp_all [fail]

theorem step_value (awaits : r.Awaits) (space : isSpace c = false) (closing : c ≠ ']') : r.step c = r.startValue c := by
  unfold step
  rcases awaits.mode with value | first
  · rw [value]
    simp [space]
  · rw [first]
    simp [space, closing]

theorem Spells.read {s : String} (spells : Spells s.toList v) : read s = (v, true) := by
  have start : Awaits {} := ⟨.inl rfl, fun _ => rfl⟩
  exact (spells {} start).finish

end Places

/-! ### Words and strings -/

section Words

theorem spells_null : Spells ['n', 'u', 'l', 'l'] .null := by
  intro r awaits
  have first : r.step 'n' = { r with mode := .word ['u', 'l', 'l'] .null } := step_value awaits (by decide) (by decide)
  rw [List.foldl_cons, first]
  exact place_mode r _ .null ▸ .refl _

theorem spells_bool (b : Bool) : Spells (Json.bool b).write.toList (.bool b) := by
  intro r awaits
  cases b with
  | true =>
    have first : r.step 't' = { r with mode := .word ['r', 'u', 'e'] (.bool true) } :=
      step_value awaits (by decide) (by decide)
    change Settles (['r', 'u', 'e'].foldl step (r.step 't')) _
    rw [first]
    exact place_mode r _ (.bool true) ▸ .refl _
  | false =>
    have first : r.step 'f' = { r with mode := .word ['a', 'l', 's', 'e'] (.bool false) } :=
      step_value awaits (by decide) (by decide)
    change Settles (['a', 'l', 's', 'e'].foldl step (r.step 'f')) _
    rw [first]
    exact place_mode r _ (.bool false) ▸ .refl _

end Words

section Strings

variable {r : Reader} {q : Quoted} {c : Char} {s : String}

/-- Inside quotes and outside of an escape. -/
structure Plain (q : Quoted) : Prop where
  escape : q.escape = .none
  high : q.high = none

theorem Plain.push (q : Quoted) (c : Char) : Plain (q.push c) :=
  ⟨rfl, rfl⟩

theorem hexDigit?_hexLetter {n : Nat} (small : n < 16) : hexDigit? (hexLetter n) = some n := by
  have each : ∀ n : Fin 16, hexDigit? (hexLetter n) = some n.val := by decide
  exact each ⟨n, small⟩

theorem foldl_unit (plain : Plain q) (control : c.toNat < 0x20) :
    ['\\', 'u', '0', '0', hexLetter (c.toNat / 16), hexLetter (c.toNat % 16)].foldl step { r with mode := .quoted q } =
      { r with mode := .quoted (q.push c) } := by
  have high : hexDigit? (hexLetter (c.toNat / 16)) = some (c.toNat / 16) := hexDigit?_hexLetter (by omega)
  have low : hexDigit? (hexLetter (c.toNat % 16)) = some (c.toNat % 16) := hexDigit?_hexLetter (by omega)
  have zero : hexDigit? '0' = some 0 := by decide
  have whole : 16 * (c.toNat / 16) + c.toNat % 16 = c.toNat := Nat.div_add_mod _ _
  have unit : ({ q with escape := .unit 1 (c.toNat / 16) } : Quoted).pushUnit c.toNat = q.push c := by
    have outside : ¬ (0xD800 ≤ c.toNat ∧ c.toNat ≤ 0xDBFF) ∧ ¬ (0xDC00 ≤ c.toNat ∧ c.toNat ≤ 0xDFFF) := by omega
    simp [Quoted.pushUnit, Quoted.push, plain.high, outside.1, outside.2]
  simp [step, stepQuoted, plain.escape, zero, high, low, whole, unit]

/-- A character that is written inside quotes is read as itself. -/
theorem foldl_escaped (plain : Plain q) :
    (escaped c).foldl step { r with mode := .quoted q } = { r with mode := .quoted (q.push c) } := by
  have letter : ∀ {d : Char}, d ≠ 'u' → escapeLetter? d = some c →
      ['\\', d].foldl step { r with mode := .quoted q } = { r with mode := .quoted (q.push c) } := by
    intro d unit known
    simp [step, stepQuoted, plain.escape, unit, known, Quoted.push]
  unfold escaped
  split
  · subst c; exact letter (by decide) rfl
  split
  · subst c; exact letter (by decide) rfl
  split
  · subst c; exact letter (by decide) rfl
  split
  · subst c; exact letter (by decide) rfl
  split
  · subst c; exact letter (by decide) rfl
  split
  · subst c; exact letter (by decide) rfl
  split
  · subst c; exact letter (by decide) rfl
  split
  case isTrue control => exact foldl_unit plain control
  case isFalse quote backslash _ _ _ _ _ printable =>
    simp [step, stepQuoted, plain.escape, quote, backslash, printable]

theorem foldl_flatMap_escaped (cs : List Char) (plain : Plain q) :
    (cs.flatMap escaped).foldl step { r with mode := .quoted q } = { r with mode := .quoted (cs.foldl .push q) } := by
  induction cs generalizing q with
  | nil => rfl
  | cons c cs ih =>
    rw [List.flatMap_cons, List.foldl_append, foldl_escaped plain]
    exact ih (.push q c)

theorem finish_foldl_push (cs : List Char) (plain : Plain q) (sound : q.sound = true) :
    (cs.foldl .push q).finish = some (String.ofList (q.chars.reverse ++ cs)) := by
  induction cs generalizing q with
  | nil => simp [Quoted.finish, plain.high, sound]
  | cons c cs ih =>
    rw [List.foldl_cons, ih (.push q c) (by simp [Quoted.push, plain.high, sound])]
    simp [Quoted.push]

theorem Plain.foldl_push (cs : List Char) (plain : Plain q) : Plain (cs.foldl .push q) := by
  induction cs generalizing q with
  | nil => exact plain
  | cons c cs ih => exact ih (.push q c)

theorem isKey_foldl_push (cs : List Char) : (cs.foldl .push q).isKey = q.isKey := by
  induction cs generalizing q with
  | nil => rfl
  | cons c cs ih => exact ih

theorem toList_quote (s : String) : (quote s).toList = '"' :: (s.toList.flatMap escaped ++ ['"']) := by
  rw [quote, String.toList_ofList]

theorem foldl_quoted (isKey : Bool) (s : String) :
    ∃ q : Quoted, (s.toList.flatMap escaped ++ ['"']).foldl step { r with mode := .quoted { isKey } } =
      { r with mode := .quoted q }.endQuoted q ∧ q.isKey = isKey ∧ q.finish = some s := by
  have plain : Plain { isKey } := ⟨rfl, rfl⟩
  refine ⟨s.toList.foldl .push { isKey }, ?_, isKey_foldl_push _, ?_⟩
  · rw [List.foldl_append, foldl_flatMap_escaped _ plain]
    simp [step, stepQuoted, (plain.foldl_push s.toList).escape]
  · rw [finish_foldl_push _ plain rfl]
    simp

theorem spells_string (s : String) : Spells (quote s).toList (.string (some s)) := by
  intro r awaits
  have first : r.step '"' = { r with mode := .quoted { isKey := false } } := step_value awaits (by decide) (by decide)
  obtain ⟨q, read, value, whole⟩ := foldl_quoted (r := r) false s
  rw [toList_quote, List.foldl_cons, first, read, endQuoted, value, whole, if_neg (by decide), place_mode]
  exact .refl _

theorem foldl_key {members : List (Option String × Json)} {rest : List Frame} (s : String) (stack : r.stack = .object members :: rest)
    (mode : r.mode = .firstKey ∧ members = [] ∨ r.mode = .key) :
    (quote s).toList.foldl step r = { r with stack := .member members (some s) :: rest, mode := .colon } := by
  have first : r.step '"' = { r with mode := .quoted { isKey := true } } := by
    rcases mode with ⟨mode, rfl⟩ | mode
    · simp [step, mode, startFirstKey, stack, isSpace, startKey]
    · simp [step, mode, isSpace, startKey]
  obtain ⟨q, read, key, whole⟩ := foldl_quoted (r := r) true s
  rw [toList_quote, List.foldl_cons, first, read, endQuoted, key, whole]
  simp [stack]

end Strings

/-! ### Containers -/

section Containers

variable {r : Reader} {v : Json} {items : List Json} {members : List (Option String × Json)} {rest : List Frame}

theorem place_array (stack : r.stack = .array items :: rest) (v : Json) :
    r.place v = { r with stack := .array (v :: items) :: rest, mode := .after } := by
  simp [place, stack]

theorem awaits_item (stack : r.stack = .array items :: rest) (mode : r.mode = .value ∨ r.mode = .firstItem) : r.Awaits :=
  ⟨mode, fun v => by rw [place_array stack v]⟩

/-- The items of an array, up to the bracket behind them. -/
theorem settles_items (spelt : ∀ v ∈ items, Spells v.write.toList v) (nonempty : items ≠ []) {before : List Json}
    (stack : r.stack = .array before :: rest) (mode : r.mode = .value ∨ r.mode = .firstItem) :
    ((commas (writeItems items)).toList.foldl step r).Settles
      { r with stack := .array (items.reverse ++ before) :: rest, mode := .after } := by
  induction items generalizing r before with
  | nil => contradiction
  | cons v items ih =>
    have first := spelt v List.mem_cons_self r (awaits_item stack mode)
    rw [place_array stack v] at first
    cases items with
    | nil => exact first
    | cons w items =>
      have text : (commas (writeItems (v :: w :: items))).toList =
          v.write.toList ++ ',' :: (commas (writeItems (w :: items))).toList := by
        simp [writeItems, commas]
      rw [text, List.foldl_append, first.foldl_cons (.inl rfl)]
      have others := ih (r := { r with stack := .array (v :: before) :: rest, mode := .value })
        (fun u mem => spelt u (List.mem_cons_of_mem v mem)) (by simp) rfl (.inl rfl)
      rw [List.reverse_cons, List.append_assoc]
      exact others

/-- The members of an object, up to the brace behind them. -/
theorem settles_members (spelt : ∀ m ∈ members, m.1.isSome = true ∧ Spells m.2.write.toList m.2) (nonempty : members ≠ [])
    {before : List (Option String × Json)} (stack : r.stack = .object before :: rest)
    (mode : r.mode = .firstKey ∧ before = [] ∨ r.mode = .key) :
    ((commas (writeMembers members)).toList.foldl step r).Settles
      { r with stack := .object (members.reverse ++ before) :: rest, mode := .after } := by
  induction members generalizing r before with
  | nil => contradiction
  | cons m members ih =>
    obtain ⟨key, v⟩ := m
    obtain ⟨named, spells⟩ := spelt _ List.mem_cons_self
    obtain ⟨s, rfl⟩ := Option.isSome_iff_exists.1 named
    have member : ((quote s ++ ":" ++ v.write).toList.foldl step r).Settles
        { r with stack := .object ((some s, v) :: before) :: rest, mode := .after } := by
      have colon : (quote s ++ ":" ++ v.write).toList = (quote s).toList ++ ':' :: v.write.toList := by simp
      rw [colon, List.foldl_append, foldl_key s stack mode, List.foldl_cons]
      have placed := spells { r with stack := .member before (some s) :: rest, mode := .value }
        ⟨.inl rfl, fun _ => rfl⟩
      exact placed
    cases members with
    | nil => exact member
    | cons n members =>
      have text : (commas (writeMembers ((some s, v) :: n :: members))).toList =
          (quote s ++ ":" ++ v.write).toList ++ ',' :: (commas (writeMembers (n :: members))).toList := by
        simp [writeMembers, commas]
      rw [text, List.foldl_append, member.foldl_cons (.inl rfl)]
      have others := ih (r := { r with stack := .object ((some s, v) :: before) :: rest, mode := .key })
        (fun u mem => spelt u (List.mem_cons_of_mem _ mem)) (by simp) rfl (.inr rfl)
      rw [List.reverse_cons, List.append_assoc]
      exact others

theorem step_close_array (items : List Json) :
    ({ r with stack := .array items :: r.stack, mode := .after } : Reader).step ']' = r.place (.array items.reverse true) :=
  place_mode r .after _

theorem step_close_object (members : List (Option String × Json)) :
    ({ r with stack := .object members :: r.stack, mode := .after } : Reader).step '\x7d' =
      r.place (.object members.reverse true) :=
  place_mode r .after _

theorem spells_array (spelt : ∀ v ∈ items, Spells v.write.toList v) :
    Spells (Json.array items true).write.toList (.array items true) := by
  intro r awaits
  have first : r.step '[' = { r with stack := .array [] :: r.stack, mode := .firstItem } :=
    step_value awaits (by decide) (by decide)
  have text : (Json.array items true).write.toList = '[' :: ((commas (writeItems items)).toList ++ [']']) := by
    simp [write]
  rw [text, List.foldl_cons, first, List.foldl_append]
  by_cases empty : items = []
  · subst empty
    exact place_mode r .firstItem (.array [] true) ▸ .refl _
  · have all := settles_items (r := { r with stack := .array [] :: r.stack, mode := .firstItem }) spelt empty rfl (.inr rfl)
    have closed := step_close_array (r := r) (items.reverse ++ [])
    rw [List.append_nil, List.reverse_reverse] at closed
    rw [all.foldl_cons (.inr (.inl rfl)), List.append_nil, closed]
    exact .refl _

theorem spells_object (spelt : ∀ m ∈ members, m.1.isSome = true ∧ Spells m.2.write.toList m.2) :
    Spells (Json.object members true).write.toList (.object members true) := by
  intro r awaits
  have first : r.step '\x7b' = { r with stack := .object [] :: r.stack, mode := .firstKey } :=
    step_value awaits (by decide) (by decide)
  have text : (Json.object members true).write.toList =
      '\x7b' :: ((commas (writeMembers members)).toList ++ ['\x7d']) := by
    simp [write]
  rw [text, List.foldl_cons, first, List.foldl_append]
  by_cases empty : members = []
  · subst empty
    exact place_mode r .firstKey (.object [] true) ▸ .refl _
  · have all := settles_members (r := { r with stack := .object [] :: r.stack, mode := .firstKey }) spelt empty rfl
      (.inl ⟨rfl, rfl⟩)
    have closed := step_close_object (r := r) (members.reverse ++ [])
    rw [List.append_nil, List.reverse_reverse] at closed
    rw [all.foldl_cons (.inr (.inr rfl)), List.append_nil, closed]
    exact .refl _

end Containers

/-! ### Numbers -/

def isNumeric (c : Char) : Bool :=
  c.isDigit || c = '.' || c = 'e' || c = '+' || c = '-'

def Numeral.begin? (c : Char) : Option Numeral :=
  if c = '-' then some { part := .sign, negative := true }
  else if c = '0' then some { part := .zero, whole := [0] }
  else if c.isDigit then some { part := .whole, whole := [digit c] }
  else none

def Numeral.ofText? : List Char → Option Numeral
  | [] => none
  | c :: text => (begin? c).bind fun n => text.foldlM extend? n

section Numbers

variable {r : Reader} {c : Char} {text : List Char} {n n' : Numeral} {k : JsonNumber}

theorem ne_of_isNumeric {d : Char} (numeric : isNumeric c = true) (other : isNumeric d = false) : c ≠ d :=
  fun same => Bool.noConfusion ((same ▸ numeric).symm.trans other)

theorem isSpace_of_isNumeric (numeric : isNumeric c = true) : isSpace c = false := by
  have space : c ≠ ' ' := ne_of_isNumeric numeric (by decide)
  have line : c ≠ '\n' := ne_of_isNumeric numeric (by decide)
  have tab : c ≠ '\t' := ne_of_isNumeric numeric (by decide)
  have back : c ≠ '\r' := ne_of_isNumeric numeric (by decide)
  simp [isSpace, space, line, tab, back]

theorem startValue_of_isNumeric (numeric : isNumeric c = true) :
    r.startValue c = match Numeral.begin? c with
      | some n => { r with mode := .numeral n }
      | none => r.fail := by
  have quote : c ≠ '"' := ne_of_isNumeric numeric (by decide)
  have bracket : c ≠ '[' := ne_of_isNumeric numeric (by decide)
  have brace : c ≠ '\x7b' := ne_of_isNumeric numeric (by decide)
  have null : c ≠ 'n' := ne_of_isNumeric numeric (by decide)
  have true : c ≠ 't' := ne_of_isNumeric numeric (by decide)
  have false : c ≠ 'f' := ne_of_isNumeric numeric (by decide)
  simp only [startValue, quote, bracket, brace, null, true, false, if_false, Numeral.begin?]
  by_cases minus : c = '-'
  · simp [minus]
  by_cases zero : c = '0'
  · simp [zero]
  by_cases digital : c.isDigit = Bool.true <;> simp [minus, zero, digital]

theorem foldl_numeral (text : List Char) (numeral : text.foldlM Numeral.extend? n = some n') :
    text.foldl step { r with mode := .numeral n } = { r with mode := .numeral n' } := by
  induction text generalizing n with
  | nil => exact congrArg (fun n => { r with mode := .numeral n }) (Option.some.inj numeral)
  | cons c text ih =>
    obtain ⟨m, extended, numeral⟩ := Option.bind_eq_some_iff.1 (List.foldlM_cons.symm.trans numeral)
    have next : ({ r with mode := .numeral n } : Reader).step c = { r with mode := .numeral m } := by
      simp [step, stepNumeral, extended]
    rw [List.foldl_cons, next]
    exact ih numeral

/-- A number that may be over is over with whatever may stand behind a value. -/
theorem settles_numeral (takes : (r.place (.number n.value)).mode = .after) (ends : Part.canEnd n.part = true) :
    Settles { r with mode := .numeral n } (r.place (.number n.value)) := by
  refine ⟨fun c next => ?_, ?_⟩
  · have ended : n.extend? c = none ∧ n.forbids c = false := by
      unfold Numeral.extend? Numeral.forbids
      rcases next with rfl | rfl | rfl <;> cases n.part <;> simp
    simp only [step, stepNumeral, ended.1, ends, ended.2, place_mode, takes]
    simp
  · simp only [finish, ends, place_mode, takes, if_true]

theorem spells_numeral (numeral : Numeral.ofText? text = some n) (ends : Part.canEnd n.part = true)
    (numeric : ∀ c ∈ text, isNumeric c = true) : Spells text (.number n.value) := by
  intro r awaits
  cases text with
  | nil => contradiction
  | cons c text =>
    obtain ⟨m, first, numeral⟩ := Option.bind_eq_some_iff.1 numeral
    have head := numeric c List.mem_cons_self
    have begun : r.step c = { r with mode := .numeral m } := by
      rw [step_value awaits (isSpace_of_isNumeric head) (ne_of_isNumeric head (by decide)),
        startValue_of_isNumeric head, first]
    rw [List.foldl_cons, begun, foldl_numeral text numeral]
    exact settles_numeral (awaits.takes _) ends

theorem foldl_broken (text : List Char) (broken : r.mode = .broken) : text.foldl step r = r := by
  induction text with
  | nil => rfl
  | cons c text ih =>
    have stays : r.step c = r := by simp [step, broken]
    rw [List.foldl_cons, stays, ih]

theorem finish_broken (broken : r.mode = .broken) : r.finish.2 = false := by
  obtain ⟨stack, result, mode⟩ := r
  cases broken
  cases result <;> rfl

/-- Read alone, a text of such characters stays a numeral to its end or is no value at all. -/
theorem foldl_alone (text : List Char) (numeric : ∀ c ∈ text, isNumeric c = true) :
    (∃ n', text.foldlM Numeral.extend? n = some n' ∧
      text.foldl step { mode := .numeral n } = { mode := .numeral n' }) ∨
    (text.foldl step { mode := .numeral n }).mode = .broken := by
  induction text generalizing n with
  | nil => exact .inl ⟨n, rfl, rfl⟩
  | cons c text ih =>
    have head := numeric c List.mem_cons_self
    cases extended : n.extend? c with
    | some m =>
      have next : ({ mode := .numeral n } : Reader).step c = { mode := .numeral m } := by
        simp [step, stepNumeral, extended]
      rw [List.foldl_cons, next, List.foldlM_cons, extended]
      exact ih fun d mem => numeric d (List.mem_cons_of_mem c mem)
    | none =>
      have broken : (({ mode := .numeral n } : Reader).step c).mode = .broken := by
        have comma : c ≠ ',' := ne_of_isNumeric head (by decide)
        simp only [step, stepNumeral, extended]
        split
        · simp [place, stepAfter, isSpace_of_isNumeric head, comma, close, fail]
        · rfl
      rw [List.foldl_cons, foldl_broken text broken]
      exact .inr broken

/-- A number that reads back alone reads back wherever a value may stand. -/
theorem spells_number (numeric : ∀ c ∈ (writeNumber k).toList, isNumeric c = true) (alone : (Json.number k).ReadsBack) :
    Spells (writeNumber k).toList (.number k) := by
  have whole : read (writeNumber k) = (.number k, true) := alone
  unfold read at whole
  generalize (writeNumber k).toList = text at *
  cases text with
  | nil => exact Bool.noConfusion (congrArg Prod.snd whole)
  | cons c text =>
    have head := numeric c List.mem_cons_self
    have begun : ({} : Reader).step c = ({} : Reader).startValue c :=
      step_value ⟨.inl rfl, fun _ => rfl⟩ (isSpace_of_isNumeric head) (ne_of_isNumeric head (by decide))
    rw [List.foldl_cons, begun, startValue_of_isNumeric head] at whole
    cases first : Numeral.begin? c with
    | none =>
      rw [first, foldl_broken text rfl] at whole
      exact Bool.noConfusion (congrArg Prod.snd whole)
    | some m =>
      rw [first] at whole
      rcases foldl_alone (n := m) text fun d mem => numeric d (List.mem_cons_of_mem c mem) with ⟨n, numeral, read⟩ | broken
      · dsimp only at whole
        rw [read] at whole
        cases ends : Part.canEnd n.part with
        | false =>
          simp [finish, ends, fail] at whole
        | true =>
          simp [finish, ends, place] at whole
          have spelt : Spells (c :: text) (.number n.value) :=
            spells_numeral (Option.bind_eq_some_iff.2 ⟨m, first, numeral⟩) ends numeric
          exact whole ▸ spelt
      · exact Bool.noConfusion ((finish_broken broken).symm.trans (congrArg Prod.snd whole))

end Numbers

/-! ### Written numbers -/

def IsNumeric (s : String) : Prop :=
  ∀ c ∈ s.toList, isNumeric c = true

instance (s : String) : Decidable (IsNumeric s) :=
  decidable_of_iff (s.toList.all isNumeric = true) List.all_eq_true

section Written

variable {s t : String} {cs : List Char}

theorem IsNumeric.append (left : IsNumeric s) (right : IsNumeric t) : IsNumeric (s ++ t) := by
  intro c mem
  rw [String.toList_append, List.mem_append] at mem
  exact mem.elim (left c) (right c)

theorem isNumeric_ofList (numeric : ∀ c ∈ cs, isNumeric c = true) : IsNumeric (String.ofList cs) := by
  intro c mem
  rw [String.toList_ofList] at mem
  exact numeric c mem

theorem isNumeric_of_isDigit {c : Char} (digit : c.isDigit = true) : isNumeric c = true := by
  simp [isNumeric, digit]

theorem isNumeric_toDigits (n : Nat) : ∀ c ∈ Nat.toDigits 10 n, isNumeric c = true :=
  fun _ mem => isNumeric_of_isDigit (Nat.isDigit_of_mem_toDigits (by decide) (by decide) mem)

theorem isNumeric_toString (n : Nat) : IsNumeric (toString n) :=
  isNumeric_ofList (isNumeric_toDigits n)

theorem isNumeric_zeros (n : Nat) : IsNumeric (Decimal.zeros n) :=
  isNumeric_ofList fun _ mem => List.eq_of_mem_replicate mem ▸ by decide

theorem isNumeric_position (digits : List Char) (numeric : ∀ c ∈ digits, isNumeric c = true) (point : Int) :
    IsNumeric (Decimal.Layout.document.position digits point) := by
  have whole : IsNumeric Decimal.Layout.document.whole := by decide
  have dot : IsNumeric "." := by decide
  have below : IsNumeric "0." := by decide
  unfold Decimal.Layout.position
  dsimp only
  split
  · exact ((isNumeric_ofList numeric).append (isNumeric_zeros _)).append whole
  split
  · exact ((isNumeric_ofList fun c mem => numeric c (List.mem_of_mem_take mem)).append dot).append
      (isNumeric_ofList fun c mem => numeric c (List.mem_of_mem_drop mem))
  · exact (below.append (isNumeric_zeros _)).append (isNumeric_ofList numeric)

theorem isNumeric_scientific (digits : List Char) (numeric : ∀ c ∈ digits, isNumeric c = true) (point : Int) :
    IsNumeric (Decimal.Layout.document.scientific digits point) := by
  have dot : IsNumeric "." := by decide
  have power : IsNumeric "e" := by decide
  have head : IsNumeric (String.ofList (digits.take 1)) :=
    isNumeric_ofList fun c mem => numeric c (List.mem_of_mem_take mem)
  have sign : IsNumeric (if point - 1 < 0 then "-" else if Decimal.Layout.document.exponentSign then "+" else "") := by
    split
    · decide
    · split <;> decide
  have last := isNumeric_toString (point - 1).natAbs
  unfold Decimal.Layout.scientific
  cases others : digits.drop 1 with
  | nil => exact (((head.append (by decide)).append power).append sign).append last
  | cons c cs =>
    have tail : IsNumeric (String.ofList (c :: cs)) :=
      isNumeric_ofList fun d mem => numeric d (List.mem_of_mem_drop (others ▸ mem))
    exact (((head.append (dot.append tail)).append power).append sign).append last

theorem isNumeric_magnitude (d : Decimal) : IsNumeric (Decimal.Layout.document.magnitude d) := by
  unfold Decimal.Layout.magnitude
  dsimp only
  split
  · exact isNumeric_position _ (isNumeric_toDigits _) _
  · exact isNumeric_scientific _ (isNumeric_toDigits _) _

theorem isNumeric_finite (x : Float) : IsNumeric (Decimal.Layout.document.finite x) := by
  have minus : IsNumeric (if x.toBits.toNat < Nat.pow 2 63 then "" else "-") := by
    split <;> decide
  exact minus.append (isNumeric_magnitude _)

theorem ReadsBack.of_null {v : Json} (alone : v.ReadsBack) (text : v.write = "null") : v = .null := by
  have null : read "null" = (.null, true) := Spells.read spells_null
  rw [ReadsBack, text] at alone
  exact (Prod.mk.inj (alone.symm.trans null)).1

theorem isNumeric_writeNumber {k : JsonNumber} (alone : (Json.number k).ReadsBack) : IsNumeric (writeNumber k) := by
  cases k with
  | natural n => exact isNumeric_toString n
  | negative n => exact IsNumeric.append (s := "-") (by decide) (isNumeric_toString n)
  | real x =>
    cases finite : x.isFinite with
    | true =>
      rw [writeNumber, Decimal.inDocument?, if_pos finite]
      exact isNumeric_finite x
    | false =>
      have null : writeNumber (.real x) = "null" := by
        rw [writeNumber, Decimal.inDocument?, finite]
        rfl
      exact nomatch alone.of_null null
  | tooLarge => exact nomatch alone.of_null rfl

end Written

/-! ### Whole numbers -/

section Naturals

variable {n : Nat} {m : Numeral}

theorem toDigits_eq_cons (positive : 0 < n) : ∃ c cs, Nat.toDigits 10 n = c :: cs ∧ c ≠ '0' := by
  induction n using Nat.strongRecOn with
  | _ n ih =>
    by_cases single : n < 10
    · have each : ∀ n : Fin 10, 0 < n.val → Nat.digitChar n ≠ '0' := by decide
      exact ⟨n.digitChar, [], Nat.toDigits_of_lt_base single, each ⟨n, single⟩ positive⟩
    · obtain ⟨c, cs, front, nonzero⟩ := ih (n / 10) (by omega) (by omega)
      refine ⟨c, cs ++ [(n % 10).digitChar], ?_, nonzero⟩
      rw [Nat.toDigits_of_base_le (by decide) (by omega), front, List.cons_append]

theorem foldlM_whole (digits : List Char) (all : ∀ c ∈ digits, c.isDigit = true) (part : m.part = .whole) :
    digits.foldlM Numeral.extend? m = some { m with whole := (digits.map digit).reverse ++ m.whole } := by
  induction digits generalizing m with
  | nil => rfl
  | cons c digits ih =>
    have extended : m.extend? c = some { m with whole := digit c :: m.whole } := by
      simp [Numeral.extend?, part, all c List.mem_cons_self]
    have rest := ih (m := { m with whole := digit c :: m.whole }) (fun d mem => all d (List.mem_cons_of_mem c mem)) part
    rw [List.foldlM_cons, extended, Option.bind_eq_bind, Option.bind_some, rest]
    simp

theorem value_whole (digits : List Char) (small : Nat.ofDigitChars 10 digits 0 < 2 ^ 64) :
    Numeral.value { part := .whole, whole := (digits.map digit).reverse } =
      .natural (Nat.ofDigitChars 10 digits 0) := by
  have sum : (digits.map digit).foldl (fun n d => 10 * n + d) 0 = Nat.ofDigitChars 10 digits 0 := by
    rw [List.foldl_map]
    rfl
  unfold Numeral.value JsonNumber.ofParts
  simp only [List.reverse_reverse, List.reverse_nil, List.isEmpty_nil, Option.isNone_none, Bool.and_self, if_true, sum]
  exact if_pos small

theorem readsBack_nat (small : n < 2 ^ 64) : (Json.nat n).ReadsBack := by
  have spelt : Spells (Nat.toDigits 10 n) (.number (.natural n)) := by
    rcases Nat.eq_zero_or_pos n with rfl | positive
    · exact spells_numeral (n := { part := .zero, whole := [0] }) rfl rfl fun _ mem => List.mem_singleton.1 mem ▸ by decide
    · obtain ⟨c, cs, text, nonzero⟩ := toDigits_eq_cons positive
      have all : ∀ d ∈ c :: cs, d.isDigit = true :=
        fun d mem => Nat.isDigit_of_mem_toDigits (by decide) (by decide) (text ▸ mem)
      have value : Nat.ofDigitChars 10 (c :: cs) 0 = n := text ▸ Nat.ofDigitChars_ten_toDigits
      have minus : c ≠ '-' := by
        rintro rfl
        exact absurd (all '-' List.mem_cons_self) (by decide)
      have begun : Numeral.begin? c = some { part := .whole, whole := [digit c] } := by
        simp [Numeral.begin?, minus, nonzero, all c List.mem_cons_self]
      have numeral : Numeral.ofText? (c :: cs) = some { part := .whole, whole := ((c :: cs).map digit).reverse } := by
        rw [Numeral.ofText?, begun, Option.bind_some, foldlM_whole cs (fun d mem => all d (.tail c mem)) rfl]
        simp
      have spelt := spells_numeral numeral rfl fun d mem => isNumeric_of_isDigit (all d mem)
      rw [value_whole _ (value.symm ▸ small), value] at spelt
      exact text ▸ spelt
  exact Spells.read (String.toList_ofList.symm ▸ spelt)

end Naturals

/-! ### Whole values -/

theorem Legible.spells {v : Json} (legible : v.Legible) : Spells v.write.toList v := by
  induction legible with
  | null => exact spells_null
  | bool b => exact spells_bool b
  | number alone => exact spells_number (isNumeric_writeNumber alone) alone
  | string s => exact spells_string s
  | array _ ih => exact spells_array ih
  | object named _ ih => exact spells_object fun m mem => ⟨named m mem, ih m mem⟩

theorem Legible.readsBack {v : Json} (legible : v.Legible) : v.ReadsBack :=
  legible.spells.read

end ThresholdAlerts.Json
