import Mathlib.Data.List.Forall2
import Mathlib.Data.List.TakeWhile

/-!
# Machinery/Json — decoding JSON

A decoder of RFC 8259 texts over bytes: a `Char` is a byte by its code, and a string denotes the
bytes of its UTF-8.  The body of a string is read by a transducer (`Mode.step`): in the modes `char`
and `tail` a byte denotes itself, and a backslash leads to the modes of the escapes, which denote
fewer bytes than they take.

So a body that denotes as many bytes as it has is `isPlain`: it holds no escape, and denotes itself.
That is `readBody_eq`, and with `readBody_plain` it decides what a text that nobody escaped is read
as.

An object that is put together from texts is read when each of them is the text of a member
(`decode_members`), and not when one is none (`decode_none`).
-/

namespace Json

inductive Value where
  | null
  | bool (b : Bool)
  /-- A number, as it is written. -/
  | number (text : List Char)
  | string (bytes : List Char)
  | array (elements : List Value)
  | object (members : List (List Char × Value))

/-- The value of a member, the first of its name. -/
def Value.field (name : List Char) : Value → Option Value
  | object members => members.lookup name
  | _ => none

/-! ## Strings -/

/-- Where the reader stands in the body of a string. -/
inductive Mode where
  /-- Between characters. -/
  | char
  /-- Inside a character: `owed` bytes to come, the next between `lo` and `hi`. -/
  | tail (owed lo hi : Nat)
  /-- Behind a backslash. -/
  | escape
  /-- Behind `\u` and `read` digits, of the value `acc`; `high` is a high surrogate before it. -/
  | hex (read acc : Nat) (high : Option Nat)
  /-- Behind a high surrogate. -/
  | pairSlash (high : Nat)
  /-- Behind a high surrogate and a backslash. -/
  | pairU (high : Nat)
  deriving DecidableEq

/-- The bytes of a code point. -/
def utf8 (n : Nat) : List Char :=
  if n < 0x80 then [Char.ofNat n]
  else if n < 0x800 then [Char.ofNat (0xC0 + n / 0x40), Char.ofNat (0x80 + n % 0x40)]
  else if n < 0x10000 then
    [Char.ofNat (0xE0 + n / 0x1000), Char.ofNat (0x80 + n / 0x40 % 0x40),
      Char.ofNat (0x80 + n % 0x40)]
  else
    [Char.ofNat (0xF0 + n / 0x40000), Char.ofNat (0x80 + n / 0x1000 % 0x40),
      Char.ofNat (0x80 + n / 0x40 % 0x40), Char.ofNat (0x80 + n % 0x40)]

def hexDigit (c : Char) : Option Nat :=
  if '0' ≤ c ∧ c ≤ '9' then some (c.toNat - '0'.toNat)
  else if 'a' ≤ c ∧ c ≤ 'f' then some (c.toNat - 'a'.toNat + 10)
  else if 'A' ≤ c ∧ c ≤ 'F' then some (c.toNat - 'A'.toNat + 10)
  else none

/-- The first byte of a character: what it owes.  A control character has to be escaped. -/
def Mode.first (n : Nat) : Option Mode :=
  if n < 0x20 then none
  else if n < 0x80 then some .char
  else if 0xC2 ≤ n ∧ n ≤ 0xDF then some (.tail 1 0x80 0xBF)
  else if n = 0xE0 then some (.tail 2 0xA0 0xBF)
  else if n = 0xED then some (.tail 2 0x80 0x9F)
  else if 0xE1 ≤ n ∧ n ≤ 0xEF then some (.tail 2 0x80 0xBF)
  else if n = 0xF0 then some (.tail 3 0x90 0xBF)
  else if 0xF1 ≤ n ∧ n ≤ 0xF3 then some (.tail 3 0x80 0xBF)
  else if n = 0xF4 then some (.tail 3 0x80 0x8F)
  else none

/-- The byte behind a backslash. -/
def Mode.escaped : Char → Option (List Char × Mode)
  | '"' => some (['"'], .char)
  | '\\' => some (['\\'], .char)
  | '/' => some (['/'], .char)
  | 'b' => some (['\x08'], .char)
  | 'f' => some (['\x0c'], .char)
  | 'n' => some (['\n'], .char)
  | 'r' => some (['\r'], .char)
  | 't' => some (['\t'], .char)
  | 'u' => some ([], .hex 0 0 none)
  | _ => none

/-- The last digit of `\uXXXX`: a character, the second half of one, or the first. -/
def Mode.codeUnit (n : Nat) : Option Nat → Option (List Char × Mode)
  | none =>
    if 0xD800 ≤ n ∧ n ≤ 0xDBFF then some ([], .pairSlash n)
    else if 0xDC00 ≤ n ∧ n ≤ 0xDFFF then none
    else some (utf8 n, .char)
  | some high =>
    if 0xDC00 ≤ n ∧ n ≤ 0xDFFF then
      some (utf8 (0x10000 + (high - 0xD800) * 0x400 + (n - 0xDC00)), .char)
    else none

/-- One byte of a body: the bytes it completes, and the mode behind it. -/
def Mode.step (m : Mode) (c : Char) : Option (List Char × Mode) :=
  match m with
  | .char => if c == '\\' then some ([], .escape) else (Mode.first c.toNat).map ([c], ·)
  | .tail owed lo hi =>
    if lo ≤ c.toNat ∧ c.toNat ≤ hi then
      some ([c], if owed ≤ 1 then .char else .tail (owed - 1) 0x80 0xBF)
    else none
  | .escape => Mode.escaped c
  | .hex read acc high => do
    let digit ← hexDigit c
    if read < 3 then some ([], .hex (read + 1) (acc * 16 + digit) high)
    else Mode.codeUnit (acc * 16 + digit) high
  | .pairSlash high => if c == '\\' then some ([], .pairU high) else none
  | .pairU high => if c == 'u' then some ([], .hex 0 0 (some high)) else none

/-- The body of a string, up to the closing quote: the bytes it denotes, and what is behind it. -/
def readBody : Mode → List Char → Option (List Char × List Char)
  | _, [] => none
  | m, c :: s =>
    if m = .char ∧ c = '"' then some ([], s)
    else do
      let (out, m) ← m.step c
      let (bytes, rest) ← readBody m s
      return (out ++ bytes, rest)

/-- Bytes that are a body, and denote themselves: UTF-8 without quotes, backslashes and control
characters. -/
def isPlain : Mode → List Char → Bool
  | m, [] => m == .char
  | m, c :: s =>
    c != '"' && c != '\\' &&
      match m.step c with
      | some (_, m) => isPlain m s
      | none => false

/-! ## Bodies that denote themselves -/

/-- The modes in which a byte denotes itself. -/
def Mode.Direct : Mode → Prop
  | .char => True
  | .tail _ lo _ => 0x80 ≤ lo
  | _ => False

/-- The bytes that were taken and are still owed to the output, at most. -/
def Mode.credit : Mode → Nat
  | .hex read _ _ => read
  | _ => 0

theorem Mode.Direct.credit {m : Mode} (h : m.Direct) : m.credit = 0 := by
  cases m <;> first | rfl | exact h.elim

theorem Mode.direct_of_first {n : Nat} {m : Mode} (h : Mode.first n = some m) : m.Direct := by
  unfold Mode.first at h
  split_ifs at h <;> simp only [Option.some.injEq] at h <;> subst h
  all_goals simp [Mode.Direct]

/-- A byte that is no quote and no backslash denotes itself. -/
theorem Mode.Direct.step {m m' : Mode} {c : Char} {out : List Char} (hm : m.Direct)
    (hc : c ≠ '\\') (h : m.step c = some (out, m')) : out = [c] ∧ m'.Direct := by
  cases m with
  | char =>
    rw [Mode.step, if_neg (by simpa using hc)] at h
    obtain ⟨m, hfirst, h⟩ := Option.map_eq_some_iff.mp h
    cases h
    exact ⟨rfl, Mode.direct_of_first hfirst⟩
  | tail owed lo hi =>
    rw [Mode.step] at h
    split_ifs at h <;> cases h <;> exact ⟨rfl, by simp [Mode.Direct]⟩
  | _ => exact hm.elim

theorem length_utf8_le (n : Nat) : (utf8 n).length ≤ 4 := by
  unfold utf8
  split_ifs <;> simp

/-- **No byte of output comes without a byte of input.** -/
theorem Mode.step_credit {m m' : Mode} {c : Char} {out : List Char}
    (h : m.step c = some (out, m')) : out.length + m'.credit ≤ m.credit + 1 := by
  cases m with
  | char =>
    rw [Mode.step] at h
    split_ifs at h
    · cases h
      simp [Mode.credit]
    · obtain ⟨m, hfirst, h⟩ := Option.map_eq_some_iff.mp h
      cases h
      simp [(Mode.direct_of_first hfirst).credit]
  | tail owed lo hi =>
    rw [Mode.step] at h
    split_ifs at h <;> cases h <;> simp [Mode.credit]
  | escape =>
    rw [Mode.step] at h
    unfold Mode.escaped at h
    split at h <;> cases h <;> simp [Mode.credit]
  | hex read acc high =>
    obtain ⟨digit, -, h⟩ := Option.bind_eq_some_iff.mp h
    split_ifs at h with hread
    · cases h
      simp [Mode.credit]
    · have hthree : 4 ≤ read + 1 := by omega
      unfold Mode.codeUnit at h
      split at h <;> split_ifs at h <;>
        obtain ⟨rfl, rfl⟩ := Prod.mk.inj (Option.some.inj h)
      · simp [Mode.credit]
      · rw [show Mode.char.credit = 0 from rfl, Nat.add_zero]
        exact (length_utf8_le _).trans hthree
      · rw [show Mode.char.credit = 0 from rfl, Nat.add_zero]
        exact (length_utf8_le _).trans hthree
  | pairSlash high =>
    rw [Mode.step] at h
    split_ifs at h
    cases h
    simp [Mode.credit]
  | pairU high =>
    rw [Mode.step] at h
    split_ifs at h
    cases h
    simp [Mode.credit]

/-- **Plain bytes are read as they are.** -/
theorem readBody_plain {m : Mode} {p : List Char} (hm : m.Direct) (hp : isPlain m p = true)
    (rest : List Char) : readBody m (p ++ '"' :: rest) = some (p, rest) := by
  induction p generalizing m with
  | nil =>
    obtain rfl := eq_of_beq hp
    rfl
  | cons c p ih =>
    rw [isPlain] at hp
    simp only [Bool.and_eq_true, bne_iff_ne] at hp
    obtain ⟨⟨hquote, hslash⟩, hstep⟩ := hp
    split at hstep
    · next out m' hs =>
      obtain ⟨rfl, hm'⟩ := hm.step hslash hs
      rw [List.cons_append, readBody, if_neg (fun h => hquote h.2), hs]
      simp [ih hm' hstep]
    · cases hstep

/-- A plain text holds no control character. -/
theorem isPlain_le {m : Mode} {p : List Char} (hm : m.Direct) (hp : isPlain m p = true) :
    ∀ c ∈ p, 0x20 ≤ c.toNat := by
  induction p generalizing m with
  | nil => exact nofun
  | cons c p ih =>
    rw [isPlain] at hp
    simp only [Bool.and_eq_true, bne_iff_ne] at hp
    obtain ⟨⟨-, hslash⟩, hstep⟩ := hp
    split at hstep
    · next out m' hs =>
      refine List.forall_mem_cons.mpr ⟨?_, ih (hm.step hslash hs).2 hstep⟩
      cases m with
      | char =>
        rw [Mode.step, if_neg (by simpa using hslash), Mode.first] at hs
        by_contra hlt
        rw [if_pos (by omega)] at hs
        cases hs
      | tail owed lo hi =>
        have hlo : 0x80 ≤ lo := hm
        by_contra hlt
        rw [Mode.step, if_neg (by omega)] at hs
        cases hs
      | _ => exact hm.elim
    · cases hstep

/-- **What is read is no longer than its text**, and is its text when it is as long. -/
theorem readBody_eq {m : Mode} {s d rest : List Char} (h : readBody m s = some (d, rest)) :
    ∃ w, s = w ++ '"' :: rest ∧ d.length ≤ w.length + m.credit ∧
      (m.Direct → d.length = w.length → d = w ∧ isPlain m w = true) := by
  induction s generalizing m d with
  | nil => cases h
  | cons c s ih =>
    rw [readBody] at h
    split_ifs at h with hclose
    · cases h
      obtain ⟨rfl, rfl⟩ := hclose
      exact ⟨[], rfl, by simp, fun _ _ => ⟨rfl, rfl⟩⟩
    · obtain ⟨⟨out, m'⟩, hs, h⟩ := Option.bind_eq_some_iff.mp h
      obtain ⟨⟨d', rest'⟩, hread, h⟩ := Option.bind_eq_some_iff.mp h
      cases h
      obtain ⟨w, rfl, hlen, hplain⟩ := ih hread
      have hcredit := Mode.step_credit hs
      refine ⟨c :: w, rfl, ?_, fun hm heq => ?_⟩
      · rw [List.length_append, List.length_cons]
        omega
      · rw [List.length_append, List.length_cons] at heq
        by_cases hslash : c = '\\'
        · -- an escape takes a byte that denotes nothing
          have hout : out.length = 0 ∧ m'.credit = 0 := by
            cases m with
            | char =>
              rw [Mode.step, if_pos (by simpa using hslash)] at hs
              cases hs
              exact ⟨rfl, rfl⟩
            | tail owed lo hi =>
              rw [Mode.step, if_neg (by
                rintro ⟨hlo, -⟩
                have hlo' : 0x80 ≤ '\\'.toNat := hslash ▸ le_trans hm hlo
                revert hlo'
                decide)] at hs
              cases hs
            | _ => exact hm.elim
          omega
        · obtain ⟨rfl, hm'⟩ := hm.step hslash hs
          obtain ⟨rfl, hw⟩ := hplain hm' (by simpa [Nat.add_comm] using heq)
          have hquote : c ≠ '"' := by
            rintro rfl
            cases m with
            | char => exact hclose ⟨rfl, rfl⟩
            | tail owed lo hi =>
              rw [Mode.step, if_neg (by
                rintro ⟨hlo, -⟩
                have hlo' : 0x80 ≤ '"'.toNat := le_trans hm hlo
                revert hlo'
                decide)] at hs
              cases hs
            | _ => exact hm.elim
          exact ⟨rfl, by simp [isPlain, hquote, hslash, hs, hw]⟩

/-! ## Values -/

def skipWs (s : List Char) : List Char :=
  s.dropWhile fun c => c == ' ' || c == '\t' || c == '\n' || c == '\r'

def isDigit (c : Char) : Bool := '0' ≤ c && c ≤ '9'

/-- `[ exp ]`, to the end. -/
def isExponent : List Char → Bool
  | [] => true
  | c :: s => (c == 'e' || c == 'E') &&
    match s with
    | '+' :: s => !s.isEmpty && s.all isDigit
    | '-' :: s => !s.isEmpty && s.all isDigit
    | s => !s.isEmpty && s.all isDigit

/-- `[ frac ] [ exp ]`, to the end. -/
def isFraction : List Char → Bool
  | '.' :: s => !(s.takeWhile isDigit).isEmpty && isExponent (s.dropWhile isDigit)
  | s => isExponent s

/-- `int [ frac ] [ exp ]`, to the end. -/
def isUnsigned : List Char → Bool
  | '0' :: s => isFraction s
  | c :: s => isDigit c && isFraction (s.dropWhile isDigit)
  | [] => false

def isNumber : List Char → Bool
  | '-' :: s => isUnsigned s
  | s => isUnsigned s

def isNumberChar (c : Char) : Bool :=
  isDigit c || c == '-' || c == '+' || c == '.' || c == 'e' || c == 'E'

/-- A number is never followed by a character it could go on with. -/
def readNumber (s : List Char) : Option (Value × List Char) :=
  let text := s.takeWhile isNumberChar
  if isNumber text then some (.number text, s.dropWhile isNumberChar) else none

/-- `null`, `true` or `false`. -/
def readLiteral (s : List Char) : Option (Value × List Char) :=
  if "null".toList.isPrefixOf s then some (.null, s.drop 4)
  else if "true".toList.isPrefixOf s then some (.bool true, s.drop 4)
  else if "false".toList.isPrefixOf s then some (.bool false, s.drop 5)
  else none

/-- `string ws : ws value ws`. -/
def readMember (value : List Char → Option (Value × List Char)) :
    List Char → Option ((List Char × Value) × List Char)
  | '"' :: s => do
    let (name, s) ← readBody .char s
    match skipWs s with
    | ':' :: s => do
      let (v, s) ← value (skipWs s)
      return ((name, v), skipWs s)
    | _ => none
  | _ => none

/-- The members of an object from the first on, and the closing brace. -/
def readMembers (value : List Char → Option (Value × List Char)) :
    Nat → List Char → Option (List (List Char × Value) × List Char)
  | 0, _ => none
  | n + 1, s => do
    match ← readMember value s with
    | (m, ',' :: s) => do
      let (ms, s) ← readMembers value n (skipWs s)
      return (m :: ms, s)
    | (m, '\x7d' :: s) => return ([m], s)
    | _ => none

/-- The elements of an array from the first on, and the closing bracket. -/
def readElements (value : List Char → Option (Value × List Char)) :
    Nat → List Char → Option (List Value × List Char)
  | 0, _ => none
  | n + 1, s => do
    let (v, s) ← value s
    match skipWs s with
    | ',' :: s => do
      let (vs, s) ← readElements value n (skipWs s)
      return (v :: vs, s)
    | ']' :: s => return ([v], s)
    | _ => none

/-- A value, and what is behind it; the number bounds its depth and the length of its lists. -/
def readValue : Nat → List Char → Option (Value × List Char)
  | 0, _ => none
  | n + 1, s =>
    match s with
    | '"' :: s => do
      let (bytes, s) ← readBody .char s
      return (.string bytes, s)
    | '\x7b' :: s =>
      match skipWs s with
      | '\x7d' :: s => some (.object [], s)
      | s => do
        let (ms, s) ← readMembers (readValue n) n s
        return (.object ms, s)
    | '[' :: s =>
      match skipWs s with
      | ']' :: s => some (.array [], s)
      | s => do
        let (vs, s) ← readElements (readValue n) n s
        return (.array vs, s)
    | s => (readLiteral s).or (readNumber s)

/-- A JSON text: one value with whitespace around it.  Neither its depth nor a list in it is longer
than the text. -/
def decode (s : List Char) : Option Value := do
  let (v, s) ← readValue (s.length + 1) (skipWs s)
  if (skipWs s).isEmpty then some v else none

example : (decode "\x7b\"a\": [1, -2.5e3, \"x\\u00e9\", null]\x7d".toList).bind (Value.field ['a'])
    = some (.array [.number ['1'], .number "-2.5e3".toList,
        .string ['x', Char.ofNat 0xC3, Char.ofNat 0xA9], .null]) := by rfl

/-! ## Objects, member by member -/

section Members

variable {value : List Char → Option (Value × List Char)} {s t : List Char}
  {m : List Char × Value}

theorem skipWs_cons {c : Char} (h : (c == ' ' || c == '\t' || c == '\n' || c == '\r') = false)
    (s : List Char) : skipWs (c :: s) = c :: s := by
  rw [skipWs, List.dropWhile_cons_of_neg (by simp [h])]

theorem readMembers_more (h : readMember value s = some (m, ',' :: t)) (n : Nat) :
    readMembers value (n + 1) s
      = (readMembers value n (skipWs t)).map fun r => (m :: r.1, r.2) := by
  simp only [readMembers, h, Option.bind_eq_bind, Option.bind_some]
  cases readMembers value n (skipWs t) <;> rfl

theorem readMembers_last (h : readMember value s = some (m, '\x7d' :: t)) (n : Nat) :
    readMembers value (n + 1) s = some ([m], t) := by
  rw [readMembers, h]
  rfl

theorem readMembers_none (h : readMember value s = none) (n : Nat) :
    readMembers value n s = none := by
  cases n with
  | zero => rfl
  | succ n =>
    rw [readMembers, h]
    rfl

/-- The first member that is read is the first member of the object. -/
theorem readMembers_head (h : readMember value s = some (m, t)) {n : Nat}
    {ms : List (List Char × Value)} {rest : List Char}
    (hms : readMembers value n s = some (ms, rest)) : ∃ ms', ms = m :: ms' := by
  cases n with
  | zero => cases hms
  | succ n =>
    simp only [readMembers, h, Option.bind_eq_bind, Option.bind_some] at hms
    split at hms
    · next heq =>
      cases heq
      obtain ⟨r, -, hr⟩ := Option.bind_eq_some_iff.mp hms
      cases hr
      exact ⟨_, rfl⟩
    · next heq =>
      cases heq
      cases hms
      exact ⟨_, rfl⟩
    · cases hms

/-- A member whose name is plain. -/
theorem readMember_of_plain {name : List Char} (hname : isPlain .char name = true) (s : List Char) :
    readMember value ('"' :: (name ++ '"' :: ':' :: s))
      = (value (skipWs s)).map fun r => ((name, r.1), skipWs r.2) := by
  have hbody := readBody_plain (m := .char) trivial hname (':' :: s)
  simp only [readMember, hbody, Option.bind_eq_bind, Option.bind_some, skipWs_cons (c := ':') rfl]
  cases value (skipWs s) <;> rfl

/-- A member that is a string. -/
theorem readMember_string {name : List Char} (hname : isPlain .char name = true) (n : Nat)
    (s : List Char) : readMember (readValue (n + 1)) ('"' :: (name ++ '"' :: ':' :: '"' :: s))
      = (readBody .char s).map fun r => ((name, .string r.1), skipWs r.2) := by
  rw [readMember_of_plain hname, skipWs_cons rfl, readValue]
  cases readBody .char s <;> rfl

/-- An object with members is read member by member. -/
theorem readValue_object (n : Nat) (s : List Char) : readValue (n + 1) ('\x7b' :: '"' :: s)
    = (readMembers (readValue n) n ('"' :: s)).map fun r => (.object r.1, r.2) := by
  rw [readValue, skipWs_cons rfl]
  split
  · next heq => exact absurd (List.cons.inj heq).1 (by decide)
  · cases readMembers (readValue n) n ('"' :: s) <;> rfl

theorem decode_object (s : List Char) : decode ('\x7b' :: '"' :: s)
    = (readMembers (readValue (s.length + 2)) (s.length + 2) ('"' :: s)).bind fun r =>
        if (skipWs r.2).isEmpty then some (.object r.1) else none := by
  rw [decode, skipWs_cons rfl, List.length_cons, List.length_cons, readValue_object]
  cases readMembers (readValue (s.length + 2)) (s.length + 2) ('"' :: s) <;> rfl

/-- What is neither a string nor an object nor an array is a literal or a number. -/
theorem readValue_scalar {c : Char} (hquote : c ≠ '"') (hbrace : c ≠ '\x7b') (hbracket : c ≠ '[')
    (n : Nat) (s : List Char) :
    readValue (n + 1) (c :: s) = (readLiteral (c :: s)).or (readNumber (c :: s)) := by
  rw [readValue]
  · intro _ heq
    exact hquote (List.cons.inj heq).1
  · intro _ heq
    exact hbrace (List.cons.inj heq).1
  · intro _ heq
    exact hbracket (List.cons.inj heq).1

/-- A run of number characters in front of a comma is a number, if it is one. -/
theorem readValue_number {w : List Char} (hne : w ≠ []) (hw : ∀ c ∈ w, isNumberChar c = true)
    (n : Nat) (s : List Char) : readValue (n + 1) (w ++ ',' :: s)
      = if isNumber w then some (.number w, ',' :: s) else none := by
  obtain ⟨c, w, rfl⟩ := List.exists_cons_of_ne_nil hne
  have hc : isNumberChar c = true := hw c List.mem_cons_self
  have hother : ∀ d : Char, isNumberChar d = false → c ≠ d := by
    rintro d hd rfl
    rw [hd] at hc
    cases hc
  have hnumber : readNumber (c :: w ++ ',' :: s)
      = if isNumber (c :: w) then some (.number (c :: w), ',' :: s) else none := by
    have htake : (c :: w ++ ',' :: s).takeWhile isNumberChar = c :: w := by
      rw [List.takeWhile_append_of_pos hw]
      simp [isNumberChar, isDigit]
    have hdrop : (c :: w ++ ',' :: s).dropWhile isNumberChar = ',' :: s := by
      rw [List.dropWhile_append_of_pos hw]
      rfl
    simp only [readNumber, htake, hdrop]
  have hliteral : readLiteral (c :: w ++ ',' :: s) = none := by
    have hnull := beq_false_of_ne (hother 'n' rfl).symm
    have htrue := beq_false_of_ne (hother 't' rfl).symm
    have hfalse := beq_false_of_ne (hother 'f' rfl).symm
    simp [readLiteral, List.isPrefixOf, hnull, htrue, hfalse]
  rw [List.cons_append] at hnumber hliteral ⊢
  rw [readValue_scalar (hother _ rfl) (hother _ rfl) (hother _ rfl), hliteral, hnumber]
  rfl

/-- An object is not read if it is not read behind a number. -/
theorem readMembers_number_none {name w : List Char} (hname : isPlain .char name = true)
    (hne : w ≠ []) (hw : ∀ c ∈ w, isNumberChar c = true) {k : Nat}
    (h : ∀ n, readMembers (readValue (k + 1)) n (skipWs s) = none) (n : Nat) :
    readMembers (readValue (k + 1)) n ('"' :: (name ++ '"' :: ':' :: (w ++ ',' :: s))) = none := by
  obtain ⟨c, w, rfl⟩ := List.exists_cons_of_ne_nil hne
  have hc : isNumberChar c = true := hw c List.mem_cons_self
  have hblank : (c == ' ' || c == '\t' || c == '\n' || c == '\r') = false := by
    by_contra hb
    simp only [Bool.not_eq_false, Bool.or_eq_true, beq_iff_eq] at hb
    rcases hb with ((rfl | rfl) | rfl) | rfl <;> cases hc
  have hskip : skipWs (c :: w ++ ',' :: s) = c :: w ++ ',' :: s := skipWs_cons hblank _
  have hmember :
      readMember (readValue (k + 1)) ('"' :: (name ++ '"' :: ':' :: (c :: w ++ ',' :: s)))
      = (if isNumber (c :: w) then some (Value.number (c :: w), ',' :: s) else none).map
          fun r => ((name, r.1), skipWs r.2) := by
    rw [readMember_of_plain hname, hskip, readValue_number hne hw]
  split at hmember
  · cases n with
    | zero => rfl
    | succ n =>
      rw [readMembers_more (t := s) hmember, h n]
      rfl
  · exact readMembers_none hmember n

end Members

/-! ## Objects from the texts of their members -/

/-- The text of a member. -/
structure IsMember (w : List Char) (m : List Char × Value) : Prop where
  opens : ∃ t, w = '"' :: t
  read : ∀ k c s, c = ',' ∨ c = '\x7d' →
    readMember (readValue (k + 1)) (w ++ c :: s) = some (m, c :: s)

/-- The texts, each with a comma behind it. -/
def commas (ws : List (List Char)) : List Char := ws.flatMap fun w => w ++ [',']

theorem isPlain_of_ascii {p : List Char}
    (h : ∀ c ∈ p, 0x20 ≤ c.toNat ∧ c.toNat < 0x80 ∧ c ≠ '"' ∧ c ≠ '\\') :
    isPlain .char p = true := by
  induction p with
  | nil => rfl
  | cons c p ih =>
    obtain ⟨⟨hlo, hhi, hquote, hslash⟩, hp⟩ := List.forall_mem_cons.mp h
    have hfirst : Mode.first c.toNat = some .char := by
      rw [Mode.first, if_neg (by omega), if_pos hhi]
    have hstep : Mode.step .char c = some ([c], .char) := by
      rw [Mode.step, if_neg (by simpa using hslash), hfirst]
      rfl
    simp [isPlain, hquote, hslash, hstep, ih hp]

section Texts

variable {name p : List Char}

theorem isMember_string (hname : isPlain .char name = true) (hp : isPlain .char p = true) :
    IsMember ('"' :: (name ++ '"' :: ':' :: '"' :: (p ++ ['"']))) (name, .string p) where
  opens := ⟨_, rfl⟩
  read k c s hc := by
    have hws : skipWs (c :: s) = c :: s := by
      rcases hc with rfl | rfl <;> exact skipWs_cons rfl s
    have hbody := readBody_plain (m := .char) trivial hp (c :: s)
    simp only [List.cons_append, List.append_assoc, List.nil_append]
    rw [readMember_string hname, hbody, Option.map_some, hws]

theorem isMember_bool (hname : isPlain .char name = true) (b : Bool) :
    IsMember ('"' :: (name ++ '"' :: ':' :: (if b then "true" else "false").toList))
      (name, .bool b) where
  opens := ⟨_, rfl⟩
  read k c s hc := by
    have hws : skipWs (c :: s) = c :: s := by
      rcases hc with rfl | rfl <;> exact skipWs_cons rfl s
    have hvalue : readValue (k + 1) ((if b then "true" else "false").toList ++ c :: s)
        = some (.bool b, c :: s) := by
      cases b <;> rfl
    have hskip : skipWs ((if b then "true" else "false").toList ++ c :: s)
        = (if b then "true" else "false").toList ++ c :: s := by
      cases b <;> rfl
    simp only [List.cons_append, List.append_assoc]
    rw [readMember_of_plain hname, hskip, hvalue, Option.map_some, hws]

end Texts

/-- A quote inside a body is denoted: an escape led to it. -/
theorem readBody_quote {m : Mode} {s d rest : List Char} (h : readBody m s = some (d, rest)) :
    ∃ w, s = w ++ '"' :: rest ∧ ('"' ∈ w → '"' ∈ d) := by
  induction s generalizing m d with
  | nil => cases h
  | cons c s ih =>
    rw [readBody] at h
    split_ifs at h with hclose
    · cases h
      obtain ⟨rfl, rfl⟩ := hclose
      exact ⟨[], rfl, fun h => absurd h List.not_mem_nil⟩
    · obtain ⟨⟨out, m'⟩, hs, h⟩ := Option.bind_eq_some_iff.mp h
      obtain ⟨⟨d', rest'⟩, hread, h⟩ := Option.bind_eq_some_iff.mp h
      cases h
      obtain ⟨w, rfl, hquote⟩ := ih hread
      refine ⟨c :: w, rfl, fun hmem => ?_⟩
      rw [List.mem_append]
      rcases List.mem_cons.mp hmem with rfl | hmem
      · left
        cases m with
        | char => exact absurd ⟨rfl, rfl⟩ hclose
        | tail owed lo hi =>
          rw [Mode.step] at hs
          split_ifs at hs <;>
            · cases hs
              exact List.mem_cons_self
        | escape =>
          cases hs
          exact List.mem_cons_self
        | hex read acc high => cases hs
        | pairSlash high => cases hs
        | pairU high => cases hs
      · exact Or.inr (hquote hmem)

/-- The text in front of the first quote. -/
theorem takeWhile_quote {p : List Char} (hp : '"' ∉ p) (t : List Char) :
    (p ++ '"' :: t).takeWhile (· != '"') = p := by
  have hrun : ∀ c ∈ p, (c != '"') = true := fun c hc => by
    simpa using fun e : c = '"' => hp (e ▸ hc)
  rw [List.takeWhile_append_of_pos hrun, List.takeWhile_cons_of_neg (by simp), List.append_nil]

/-- **A text without quotes is read back between quotes only when it is plain.** -/
theorem isPlain_of_readBody {p t rest : List Char} (hp : '"' ∉ p)
    (h : readBody .char (p ++ '"' :: t) = some (p, rest)) : isPlain .char p = true := by
  obtain ⟨w, hw, hquote⟩ := readBody_quote h
  obtain ⟨w', hw', -, hplain⟩ := readBody_eq h
  obtain rfl := List.append_cancel_right (hw.symm.trans hw')
  have hfirst := congrArg (List.takeWhile (· != '"')) hw
  rw [takeWhile_quote hp, takeWhile_quote fun hmem => hp (hquote hmem)] at hfirst
  obtain rfl := hfirst
  exact (hplain trivial rfl).2

theorem length_le_commas (ws : List (List Char)) : ws.length ≤ (commas ws).length := by
  induction ws with
  | nil => exact Nat.zero_le _
  | cons w ws ih =>
    rw [commas, List.flatMap_cons, List.length_append, List.length_append]
    exact Nat.succ_le_of_lt (Nat.lt_of_le_of_lt ih (by simp [commas]))

section Commas

variable {ws : List (List Char)} {ms : List (List Char × Value)} {w t name p : List Char}
  {m : List Char × Value} {json : Value}

theorem readMembers_commas (h : List.Forall₂ IsMember ws ms) (k n : Nat) (t : List Char) :
    readMembers (readValue (k + 1)) (ws.length + n) (commas ws ++ '"' :: t)
      = (readMembers (readValue (k + 1)) n ('"' :: t)).map fun r => (ms ++ r.1, r.2) := by
  induction h with
  | nil => simp [commas]
  | @cons w m ws ms hw h ih =>
    have hskip : skipWs (commas ws ++ '"' :: t) = commas ws ++ '"' :: t := by
      cases h with
      | nil => exact skipWs_cons rfl t
      | cons hw' _ =>
        obtain ⟨u, rfl⟩ := hw'.opens
        exact skipWs_cons rfl _
    have hmember : readMember (readValue (k + 1)) (commas (w :: ws) ++ '"' :: t)
        = some (m, ',' :: (commas ws ++ '"' :: t)) := by
      have hread := hw.read k ',' (commas ws ++ '"' :: t) (.inl rfl)
      simpa [commas] using hread
    rw [List.length_cons, Nat.add_right_comm, readMembers_more hmember, hskip, ih, Option.map_map]
    rfl

/-- The members in front have been read, and there is room for the rest. -/
theorem decode_commas (h : List.Forall₂ IsMember ws ms) (t : List Char) : ∃ k n,
    decode ('\x7b' :: (commas ws ++ '"' :: t))
      = ((readMembers (readValue (k + 2)) (n + 1) ('"' :: t)).map fun r => (ms ++ r.1, r.2)).bind
          fun r => if (skipWs r.2).isEmpty then some (.object r.1) else none := by
  obtain ⟨s, hs⟩ : ∃ s, commas ws ++ '"' :: t = '"' :: s := by
    cases h with
    | nil => exact ⟨t, rfl⟩
    | cons hw _ =>
      obtain ⟨u, rfl⟩ := hw.opens
      exact ⟨_, rfl⟩
  have hlen := congrArg List.length hs
  have hcommas := length_le_commas ws
  rw [List.length_append, List.length_cons, List.length_cons] at hlen
  have hread := readMembers_commas h (s.length + 1) (s.length - ws.length + 2) t
  rw [hs, show ws.length + (s.length - ws.length + 2) = s.length + 2 by omega] at hread
  exact ⟨s.length, s.length - ws.length + 1, by rw [hs, decode_object, hread]⟩

/-- **An object whose members are read is read.** -/
theorem decode_members (h : List.Forall₂ IsMember ws ms) (hw : IsMember w m) :
    decode ('\x7b' :: (commas ws ++ (w ++ ['\x7d']))) = some (.object (ms ++ [m])) := by
  have hread k := hw.read k '\x7d' [] (.inr rfl)
  obtain ⟨u, rfl⟩ := hw.opens
  obtain ⟨k, n, hk⟩ := decode_commas h (u ++ ['\x7d'])
  rw [List.cons_append, hk]
  rw [List.cons_append] at hread
  rw [readMembers_last (hread _)]
  rfl

/-- **An object with a member that is not read is not read.** -/
theorem decode_none (h : List.Forall₂ IsMember ws ms)
    (ht : ∀ k n, readMembers (readValue (k + 2)) n ('"' :: t) = none) :
    decode ('\x7b' :: (commas ws ++ '"' :: t)) = none := by
  obtain ⟨k, n, hk⟩ := decode_commas h t
  rw [hk, ht]
  rfl

/-- The string that a member is read as is the body of its text. -/
theorem readBody_of_decode (h : List.Forall₂ IsMember ws ms) (hname : isPlain .char name = true)
    (hnew : name ∉ ms.map Prod.fst)
    (hjson : decode ('\x7b' :: (commas ws ++ '"' :: (name ++ '"' :: ':' :: '"' :: t))) = some json)
    (hfield : json.field name = some (.string p)) : ∃ rest, readBody .char t = some (p, rest) := by
  obtain ⟨k, n, hk⟩ := decode_commas h (name ++ '"' :: ':' :: '"' :: t)
  have hmember := readMember_string hname (k + 1) t
  rw [hk] at hjson
  obtain ⟨r, hr, hjson⟩ := Option.bind_eq_some_iff.mp hjson
  obtain ⟨⟨ms', rest⟩, hms, rfl⟩ := Option.map_eq_some_iff.mp hr
  split_ifs at hjson
  cases hjson
  cases hbody : readBody .char t with
  | none =>
    rw [hbody] at hmember
    rw [readMembers_none hmember] at hms
    cases hms
  | some b =>
    obtain ⟨bytes, rest'⟩ := b
    rw [hbody, Option.map_some] at hmember
    obtain ⟨ms'', rfl⟩ := readMembers_head hmember hms
    have hnone : ms.lookup name = none := by
      rw [List.lookup_eq_none_iff]
      exact fun m hm => bne_iff_ne.mpr fun heq => hnew (heq ▸ List.mem_map_of_mem hm)
    rw [Value.field, List.lookup_append, hnone, Option.none_or, List.lookup_cons_self] at hfield
    cases hfield
    exact ⟨rest', rfl⟩

/-- **A string that is read back is plain**, when it holds no quote. -/
theorem isPlain_of_decode (h : List.Forall₂ IsMember ws ms) (hname : isPlain .char name = true)
    (hnew : name ∉ ms.map Prod.fst) (hp : '"' ∉ p)
    (hjson : decode ('\x7b' :: (commas ws ++
      '"' :: (name ++ '"' :: ':' :: '"' :: (p ++ '"' :: t)))) = some json)
    (hfield : json.field name = some (.string p)) : isPlain .char p = true := by
  obtain ⟨rest, hbody⟩ := readBody_of_decode h hname hnew hjson hfield
  exact isPlain_of_readBody hp hbody

end Commas

/-- A member of a name of its own is found under it. -/
theorem field_of_mem {ms : List (List Char × Value)} {m : List Char × Value}
    (hms : (ms.map Prod.fst).Nodup) (hm : m ∈ ms) : (Value.object ms).field m.1 = some m.2 := by
  obtain ⟨pre, post, rfl⟩ := List.append_of_mem hm
  rw [List.map_append, List.map_cons] at hms
  have hnone : pre.lookup m.1 = none := by
    rw [List.lookup_eq_none_iff]
    intro q hq
    refine bne_iff_ne.mpr fun heq => ?_
    have hdisjoint := (List.nodup_append.mp hms).2.2
    exact hdisjoint q.1 (List.mem_map_of_mem hq) m.1 List.mem_cons_self heq.symm
  rw [Value.field, List.lookup_append, hnone, Option.none_or]
  exact List.lookup_cons_self

section Unread

variable {s name : List Char} {c : Char}

/-- An object whose first member has no quote is not read. -/
theorem readValue_object_none (hquote : c ≠ '"') (hbrace : c ≠ '\x7d')
    (hws : (c == ' ' || c == '\t' || c == '\n' || c == '\r') = false) (n : Nat) (s : List Char) :
    readValue n ('\x7b' :: c :: s) = none := by
  cases n with
  | zero => rfl
  | succ n =>
    have hmember : readMember (readValue n) (c :: s) = none := by
      rw [readMember]
      exact fun _ heq => hquote (List.cons.inj heq).1
    rw [readValue, skipWs_cons hws]
    split
    · next heq => exact absurd (List.cons.inj heq).1 hbrace
    · rw [readMembers_none hmember]
      rfl

/-- An array whose first element is not read is not read. -/
theorem readValue_array_none (hbracket : c ≠ ']')
    (hws : (c == ' ' || c == '\t' || c == '\n' || c == '\r') = false)
    (h : ∀ n, readValue n (c :: s) = none) (n : Nat) : readValue n ('[' :: c :: s) = none := by
  cases n with
  | zero => rfl
  | succ n =>
    have helements : readElements (readValue n) n (c :: s) = none := by
      cases n with
      | zero => rfl
      | succ n =>
        rw [readElements, h]
        rfl
    rw [readValue, skipWs_cons hws]
    split
    · next heq => exact absurd (List.cons.inj heq).1 hbracket
    · rw [helements]
      rfl

/-- Members whose first value is not read are not read. -/
theorem readMembers_value_none (hname : isPlain .char name = true)
    (hws : (c == ' ' || c == '\t' || c == '\n' || c == '\r') = false)
    (h : ∀ n, readValue n (c :: s) = none) (k n : Nat) :
    readMembers (readValue k) n ('"' :: (name ++ '"' :: ':' :: c :: s)) = none := by
  refine readMembers_none ?_ n
  rw [readMember_of_plain hname, skipWs_cons hws, h]
  rfl

end Unread

end Json
