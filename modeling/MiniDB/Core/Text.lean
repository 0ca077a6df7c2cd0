import MiniDB.Machinery.Scan
import Mathlib.Algebra.Order.Group.Int
import Mathlib.Tactic.Ring

/-!
# Core/Text — character buffers and the C library functions the program calls on them

A `char` is the `Char` of the same code, a buffer or a `core::String` the list of its characters.
A `const char*` ends at its terminating NUL, so a raw pointer is read through `cString`.

The sizes of containers and the positions in them are naturals: `static_cast<int>(size())` is the
size, no container being near 2³¹ elements.  Values computed from *text* do wrap: `atoi` is 32 bits
wide.
-/

namespace MiniDB.Core

/-- A run of characters: a `core::String`, or the contents of a `char` buffer. -/
abbrev Text := List Char

/-- The text a `const char*` denotes: up to the terminating NUL. -/
def cString (buf : Text) : Text := buf.takeWhile (· != '\x00')

/-- `snprintf` into a buffer of `size` bytes: the output, cut to leave room for the NUL. -/
def snprintf (size : Nat) (out : Text) : Text := out.take (size - 1)

/-! ## Searching and comparing -/

/-- `strstr(hay, needle)`: the part of `hay` that starts at the first occurrence of `needle`. -/
def strstr (hay needle : Text) : Option Text :=
  match hay with
  | [] => if needle.isEmpty then some [] else none
  | c :: s => if needle.isPrefixOf (c :: s) then some (c :: s) else strstr s needle

/-- `strchr(s, c)`: the part of `s` that starts at the first `c`. -/
def strchr (s : Text) (c : Char) : Option Text :=
  match s.dropWhile (· != c) with
  | [] => none
  | t => some t

/-- `strcmp`: byte-wise lexicographic order; only the sign of the result is specified. -/
def strcmp : Text → Text → Int
  | [], [] => 0
  | [], _ :: _ => -1
  | _ :: _, [] => 1
  | a :: s, b :: t => if a < b then -1 else if b < a then 1 else strcmp s t

/-! ## Numbers -/

/-- `%zu`. -/
def natText (n : Nat) : Text := Nat.toDigits 10 n

/-- `%d`. -/
def intText (n : Int) : Text :=
  if n < 0 then '-' :: natText n.natAbs else natText n.natAbs

/-- Conversion to a 32-bit `int`. -/
def toInt32 (n : Int) : Int := n.bmod (2 ^ 32)

/-- `isspace` in the C locale. -/
def isSpace (c : Char) : Bool :=
  c == ' ' || c == '\t' || c == '\n' || c == '\x0b' || c == '\x0c' || c == '\r'

def isDigit (c : Char) : Bool := '0' ≤ c && c ≤ '9'

/-- The decimal value of the digits a text starts with. -/
def digitsValue (s : Text) : Nat := Nat.ofDigitChars 10 (s.takeWhile isDigit) 0

/-- `strtol` in base 10, clamped to the range of a 64-bit `long`. -/
def strtol (s : Text) : Int :=
  match s.dropWhile isSpace with
  | '-' :: t => max (-(digitsValue t : Int)) (-2 ^ 63)
  | '+' :: t => min (digitsValue t : Int) (2 ^ 63 - 1)
  | t => min (digitsValue t : Int) (2 ^ 63 - 1)

/-- `atoi`: `strtol`, truncated to an `int`. -/
def atoi (s : Text) : Int := toInt32 (strtol s)

example : atoi "4294967295".toList = -1 := by decide

/-- The values of a 32-bit `int`. -/
def IsInt32 (n : Int) : Prop := -2 ^ 31 ≤ n ∧ n < 2 ^ 31

instance (n : Int) : Decidable (IsInt32 n) := inferInstanceAs (Decidable (_ ∧ _))

/-! ## Files and fields -/

/-- `fgets(buf, size, fp)`: at most `size - 1` characters up to and including a newline; none at the
end of the file.  What stays in the stream is returned with it. -/
def fgets (size : Nat) (file : Text) : Option (Text × Text) :=
  if file.isEmpty then none else some (Scan.chunk '\n' (size - 1) file)

/-- One call of `strtok_r` on what the calls before it have left. -/
def strtok (delims : Text) (s : Text) : Option (Text × Text) :=
  Scan.token (fun c => delims.contains c) s

/-! ## The library functions on the texts the program builds -/

theorem strcmp_eq_zero_iff {s t : Text} : strcmp s t = 0 ↔ s = t := by
  induction s generalizing t with
  | nil => cases t <;> simp [strcmp]
  | cons a s ih =>
    cases t with
    | nil => simp [strcmp]
    | cons b t =>
      rw [strcmp]
      split_ifs with h₁ h₂
      · have hab : a ≠ b := fun h => Char.lt_irrefl a (h ▸ h₁)
        simp [hab]
      · have hab : a ≠ b := fun h => Char.lt_irrefl a (h ▸ h₂)
        simp [hab]
      · simp [ih, Char.le_antisymm (Char.not_lt.mp h₂) (Char.not_lt.mp h₁)]

/-- What `strstr` finds starts with the needle. -/
theorem strstr_eq_some {hay needle rest : Text} (h : strstr hay needle = some rest) :
    rest <:+ hay ∧ needle <+: rest := by
  induction hay with
  | nil =>
    rw [strstr] at h
    split at h
    · next hempty =>
      cases h
      rw [List.isEmpty_iff.mp hempty]
      exact ⟨List.suffix_rfl, List.prefix_rfl⟩
    · cases h
  | cons c s ih =>
    rw [strstr] at h
    split at h
    · next hprefix =>
      cases h
      exact ⟨List.suffix_rfl, List.isPrefixOf_iff_prefix.mp hprefix⟩
    · obtain ⟨hsuffix, hprefix⟩ := ih h
      exact ⟨hsuffix.trans (List.suffix_cons c s), hprefix⟩

theorem strchr_append {s : Text} {c : Char} (hs : c ∉ s) (rest : Text) :
    strchr (s ++ c :: rest) c = some (c :: rest) := by
  have hrun : ∀ x ∈ s, (x != c) = true := fun x hx => by
    simpa using fun e : x = c => hs (e ▸ hx)
  rw [strchr, List.dropWhile_append_of_pos hrun, List.dropWhile_cons_of_neg (by simp)]

theorem strchr_eq_none {s : Text} {c : Char} (hs : c ∉ s) : strchr s c = none := by
  have hrun : ∀ x ∈ s, (x != c) = true := fun x hx => by
    simpa using fun e : x = c => hs (e ▸ hx)
  rw [strchr, List.dropWhile_eq_nil_iff.mpr hrun]

theorem cString_of_notMem {s : Text} (h : '\x00' ∉ s) : cString s = s :=
  List.takeWhile_eq_self_iff.mpr fun c hc => by
    simpa using fun h0 : c = '\x00' => h (h0 ▸ hc)

theorem notMem_cString (s : Text) : '\x00' ∉ cString s := fun h => by
  simpa using List.mem_takeWhile_imp h

/-- A text that fits the buffer is printed whole. -/
theorem snprintf_of_lt {size : Nat} {out : Text} (h : out.length < size) :
    snprintf size out = out := List.take_of_length_le (by omega)

theorem isInt32_toInt32 (n : Int) : IsInt32 (toInt32 n) := by
  unfold IsInt32 toInt32
  constructor
  · have := Int.le_bmod (x := n) (show 0 < 2 ^ 32 by decide)
    simpa using this
  · have := Int.bmod_lt (x := n) (show 0 < 2 ^ 32 by decide)
    simpa using this

theorem isInt32_atoi (s : Text) : IsInt32 (atoi s) := isInt32_toInt32 _

theorem toInt32_of_isInt32 {n : Int} (h : IsInt32 n) : toInt32 n = n := by
  unfold IsInt32 at h
  exact Int.bmod_eq_of_le (by simpa using h.1) (by simpa using h.2)

theorem isDigit_digitChar {c : Char} (h : c.isDigit = true) : isDigit c = true := by
  simpa [isDigit, Char.isDigit, Char.le_def] using h

theorem isDigit_natText {n : Nat} {c : Char} (h : c ∈ natText n) : isDigit c = true :=
  isDigit_digitChar (Nat.isDigit_of_mem_toDigits (by decide) (by decide) h)

theorem natText_ne_nil (n : Nat) : natText n ≠ [] := Nat.toDigits_ne_nil

end MiniDB.Core
