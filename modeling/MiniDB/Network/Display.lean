import MiniDB.Network.Protocol

/-!
# Network/Display — what the client prints of a response

The client walks over the response with pointers: one forward, from each `":"` to the quote behind
its value, one backward, from the `":"` to the start of its key.  When a value is not closed the
forward pointer moves one character on; if the response ends with the `":"` itself, that character
is the NUL, and the search goes on behind it.

**`display_response_iff`**: the scan stays inside the response exactly when it does not come to a
`":"` at its end.
-/

namespace MiniDB.Network

open MiniDB.Core

/-! ## Pointers into the response -/

inductive Fault where
  /-- A read behind the terminating NUL. -/
  | pastEnd
  /-- A text that ends in front of its start. -/
  | negativeLength
  /-- The loop takes more rounds than the response has characters. -/
  | endless
  deriving DecidableEq, Repr

/-- `*(json + i)`: behind the last character stands the NUL. -/
def byteAt (json : Text) (i : Nat) : Except Fault Char :=
  if json.length < i then .error .pastEnd else .ok (json[i]?.getD '\x00')

/-- `strstr(json + pos, needle)`. -/
def strstrAt (json : Text) (pos : Nat) (needle : Text) : Except Fault (Option Nat) :=
  if json.length < pos then .error .pastEnd
  else .ok ((strstr (json.drop pos) needle).map fun rest => json.length - rest.length)

/-- `strchr(json + pos, c)`. -/
def strchrAt (json : Text) (pos : Nat) (c : Char) : Except Fault (Option Nat) :=
  if json.length < pos then .error .pastEnd
  else .ok ((strchr (json.drop pos) c).map fun rest => json.length - rest.length)

/-- `core::String(json + start, stop - start)`. -/
def cut (json : Text) (start stop : Nat) : Except Fault Text :=
  if stop < start then .error .negativeLength else .ok ((json.drop start).take (stop - start))

/-! ## `display_response` -/

/-- What stands between the first `pattern` and the next quote. -/
def valueBehind (json pattern : Text) : Except Fault (Option Text) := do
  match ← strstrAt json 0 pattern with
  | none => return none
  | some pos =>
    let pos := pos + pattern.length
    match ← strchrAt json pos '"' with
    | none => return none
    | some stop => some <$> cut json pos stop

/-- The walk back from a `":"`, to the quote or the comma in front of its key. -/
def keyStart (json : Text) : Nat → Except Fault Nat
  | 0 => return 0
  | n + 1 => do
    let c ← byteAt json n
    if c != '"' && c != ',' then keyStart json n else return n + 1

/-- The key in front of a `":"`. -/
def keyBefore (json : Text) (pos : Nat) : Except Fault Text := do
  let start ← keyStart json pos
  let c ← byteAt json start
  cut json (if c == ',' || c == '\x7b' then start + 1 else start) pos

/-- What the loop prints from `pos` on. -/
def displayMembers (json : Text) : Nat → Nat → Except Fault (List Text)
  | 0, _ => .error .endless
  | fuel + 1, pos => do
    match ← strstrAt json pos "\":\"".toList with
    | none => return []
    | some pos =>
      let key ← keyBefore json pos
      let pos := pos + 3
      match ← strchrAt json pos '"' with
      | some valEnd =>
        let val ← cut json pos valEnd
        let lines ← displayMembers json fuel (valEnd + 1)
        if key != "status".toList && key != "kind".toList then
          return ("  ".toList ++ key ++ ": ".toList ++ val) :: lines
        else return lines
      | none => displayMembers json fuel (pos + 1)

/-- The lines printed for a response. -/
def displayResponse (response : Text) : Except Fault (List Text) := do
  let json := cString response
  match ← valueBehind json "\"status\":\"".toList with
  | none => return [json]
  | some status =>
    if status == "error".toList then
      match ← valueBehind json "\"message\":\"".toList with
      | some msg => return ["ERROR: ".toList ++ msg]
      | none => return ["ERROR: (unknown)".toList]
    else
      let kind ← valueBehind json "\"kind\":\"".toList
      let lines ← displayMembers json (json.length + 1) 0
      return "OK".toList :: (kind.map ("  Statement: ".toList ++ ·)).toList ++ lines

/-! ## Texts the scan leaves -/

/-- The first `needle` of the text has a value behind it, closed by a quote. -/
def Closes (s needle value rest : Text) : Prop :=
  strstr s needle = some (needle ++ (value ++ '"' :: rest)) ∧ '"' ∉ value

/-- Member after member the scan comes to a `":"` that ends the text. -/
inductive Dangling : Text → Prop
  | here {s : Text} (h : strstr s "\":\"".toList = some "\":\"".toList) : Dangling s
  | next {s value rest : Text} (h : Closes s "\":\"".toList value rest) (hrest : Dangling rest) :
    Dangling s

/-- A response with a status, not that of an error, whose members dangle. -/
def RunsOff (json : Text) : Prop :=
  (∃ status rest, Closes json "\"status\":\"".toList status rest ∧ status ≠ "error".toList) ∧
    Dangling json

@[simp]
theorem ok_bind {α β : Type} (a : α) (f : α → Except Fault β) : (Except.ok a >>= f) = f a := rfl

section Pointers

variable {json needle tail rest : Text} {c : Char} {pos n : Nat}

/-- A part of the response is what stands behind a pointer. -/
theorem drop_of_suffix (h : rest <:+ json.drop pos) (hpos : pos ≤ json.length) :
    json.drop (json.length - rest.length) = rest ∧ pos ≤ json.length - rest.length ∧
      rest.length ≤ json.length := by
  have hlen := h.length_le
  rw [List.length_drop] at hlen
  exact ⟨(List.suffix_iff_eq_drop.mp (h.trans (List.drop_suffix _ _))).symm, by omega, by omega⟩

theorem strstrAt_none (hpos : pos ≤ json.length) (h : strstr (json.drop pos) needle = none) :
    strstrAt json pos needle = .ok none := by
  rw [strstrAt, if_neg hpos.not_gt, h]
  rfl

theorem strstrAt_some (hpos : pos ≤ json.length) (h : strstr (json.drop pos) needle = some rest) :
    ∃ p, strstrAt json pos needle = .ok (some p) ∧ json.drop p = rest ∧ pos ≤ p ∧
      p + rest.length = json.length := by
  obtain ⟨hdrop, hle, hlen⟩ := drop_of_suffix (strstr_eq_some h).1 hpos
  refine ⟨_, ?_, hdrop, hle, Nat.sub_add_cancel hlen⟩
  rw [strstrAt, if_neg hpos.not_gt, h]
  rfl

theorem strchrAt_none (hpos : pos ≤ json.length) (h : c ∉ json.drop pos) :
    strchrAt json pos c = .ok none := by
  rw [strchrAt, if_neg hpos.not_gt, strchr_eq_none h]
  rfl

theorem strchrAt_append (hdrop : json.drop pos = tail ++ c :: rest) (hpos : pos ≤ json.length)
    (h : c ∉ tail) : strchrAt json pos c = .ok (some (pos + tail.length)) := by
  have hlen := congrArg List.length hdrop
  rw [List.length_drop, List.length_append] at hlen
  rw [strchrAt, if_neg hpos.not_gt, hdrop, strchr_append h, Option.map_some,
    show json.length - (c :: rest).length = pos + tail.length by omega]

theorem cut_ok (json : Text) {start stop : Nat} (h : start ≤ stop) :
    cut json start stop = .ok ((json.drop start).take (stop - start)) := if_neg h.not_gt

/-- The text between two pointers. -/
theorem cut_append (hdrop : json.drop pos = tail ++ rest) :
    cut json pos (pos + tail.length) = .ok tail := by
  rw [cut_ok json (Nat.le_add_right _ _), hdrop, Nat.add_sub_cancel_left, List.take_left]

/-- The walk back stays inside the response, and does not pass its end. -/
theorem keyStart_ok (hn : n ≤ json.length) : ∃ k ≤ n, keyStart json n = .ok k := by
  induction n with
  | zero => exact ⟨0, le_rfl, rfl⟩
  | succ n ih =>
    obtain ⟨k, hk, hstart⟩ := ih (Nat.le_of_succ_le hn)
    rw [keyStart, byteAt, if_neg (Nat.le_of_succ_le hn).not_gt]
    by_cases hc : json[n]?.getD '\x00' != '"' && json[n]?.getD '\x00' != ','
    · exact ⟨k, hk.trans n.le_succ, (if_pos hc).trans hstart⟩
    · exact ⟨n + 1, le_rfl, if_neg hc⟩

/-- **The key in front of a quote has a length**: the walk back ends in front of the quote when it
ends at a comma or a brace. -/
theorem keyBefore_ok (hdrop : json.drop pos = '"' :: rest) :
    ∃ key, keyBefore json pos = .ok key := by
  have hbyte : json[pos]? = some '"' := by
    rw [← Nat.add_zero pos, ← List.getElem?_drop, hdrop]
    rfl
  obtain ⟨hlt, -⟩ := List.getElem?_eq_some_iff.mp hbyte
  obtain ⟨k, hk, hstart⟩ := keyStart_ok hlt.le
  have hread : byteAt json k = .ok (json[k]?.getD '\x00') := if_neg (hk.trans hlt.le).not_gt
  have hle : (if json[k]?.getD '\x00' == ',' || json[k]?.getD '\x00' == '\x7b' then k + 1 else k)
      ≤ pos := by
    split
    · next hc =>
      have hne : k ≠ pos := by
        rintro rfl
        rw [hbyte] at hc
        revert hc
        decide
      omega
    · exact hk
  refine ⟨_, Eq.trans ?_ (cut_ok json hle)⟩
  rw [keyBefore, hstart, ok_bind, hread]
  rfl

end Pointers

section Scanning

variable {json s needle value rest : Text} {pos : Nat}

theorem Closes.value_unique {value' rest' : Text} (h : Closes s needle value rest)
    (h' : Closes s needle value' rest') : value' = value ∧ rest' = rest := by
  have heq := List.append_cancel_left (Option.some.inj (h'.1.symm.trans h.1))
  have hchr := congrArg (strchr · '"') heq
  simp only [strchr_append h.2, strchr_append h'.2] at hchr
  obtain rfl := (List.cons.inj (Option.some.inj hchr)).2
  exact ⟨List.append_cancel_right heq, rfl⟩

/-- A text has a closed value behind a needle, or no quote behind it, or no needle at all. -/
theorem closes_cases (s needle : Text) :
    strstr s needle = none ∨
      (∃ tail, strstr s needle = some (needle ++ tail) ∧ '"' ∉ tail) ∨
      ∃ value rest, Closes s needle value rest := by
  cases hfind : strstr s needle with
  | none => exact .inl rfl
  | some found =>
    obtain ⟨tail, rfl⟩ := (strstr_eq_some hfind).2
    by_cases hquote : '"' ∈ tail
    · obtain ⟨value, rest, rfl, hvalue⟩ := List.eq_append_cons_of_mem hquote
      exact .inr (.inr ⟨value, rest, hfind, hvalue⟩)
    · exact .inr (.inl ⟨tail, rfl, hquote⟩)

/-- **A closed value is found.** -/
theorem valueBehind_closes (h : Closes json needle value rest) :
    valueBehind json needle = .ok (some value) := by
  obtain ⟨p, hfind, hdrop, -, hlen⟩ := strstrAt_some (Nat.zero_le _) h.1
  have hvalue : json.drop (p + needle.length) = value ++ '"' :: rest := by
    rw [← List.drop_drop, hdrop, List.drop_left]
  rw [List.length_append] at hlen
  simp only [valueBehind, hfind, ok_bind, strchrAt_append hvalue (by omega) h.2,
    cut_append hvalue]
  rfl

/-- What is not closed is not found. -/
theorem valueBehind_none (h : ∀ value rest, ¬ Closes json needle value rest) :
    valueBehind json needle = .ok none := by
  obtain hnone | ⟨tail, hsome, hquote⟩ | ⟨value, rest, hcloses⟩ := closes_cases json needle
  · simp only [valueBehind, strstrAt_none (Nat.zero_le _) hnone, ok_bind]
    rfl
  · obtain ⟨p, hfind, hdrop, -, hlen⟩ := strstrAt_some (Nat.zero_le _) hsome
    have htail : json.drop (p + needle.length) = tail := by
      rw [← List.drop_drop, hdrop, List.drop_left]
    rw [List.length_append] at hlen
    have hchr : strchrAt json (p + needle.length) '"' = .ok none :=
      strchrAt_none (by omega) (by rwa [htail])
    simp only [valueBehind, hfind, ok_bind, hchr]
    rfl
  · exact absurd hcloses (h value rest)

theorem valueBehind_ok (json needle : Text) : ∃ value, valueBehind json needle = .ok value := by
  by_cases h : ∃ value rest, Closes json needle value rest
  · obtain ⟨value, rest, hcloses⟩ := h
    exact ⟨_, valueBehind_closes hcloses⟩
  · exact ⟨_, valueBehind_none fun value rest hcloses => h ⟨value, rest, hcloses⟩⟩

end Scanning

/-! ## The loop -/

section Loop

variable {json s tail value rest : Text} {pos fuel : Nat}

/-- Where there is no `":"` nothing dangles. -/
theorem not_dangling_of_none (h : strstr s "\":\"".toList = none) : ¬ Dangling s := by
  intro hd
  cases hd with
  | here h' =>
    rw [h] at h'
    cases h'
  | next h' =>
    rw [Closes, h] at h'
    cases h'.1

theorem quote_mem_of_strstr (h : strstr s "\":\"".toList = some tail) : '"' ∈ s :=
  (strstr_eq_some h).1.subset ((strstr_eq_some h).2.subset List.mem_cons_self)

theorem Dangling.quote_mem (h : Dangling s) : '"' ∈ s := by
  cases h with
  | here h => exact quote_mem_of_strstr h
  | next h => exact quote_mem_of_strstr h.1

/-- In front of a value that is not closed, nothing dangles but the `":"` at the end. -/
theorem dangling_open (h : strstr s "\":\"".toList = some ("\":\"".toList ++ tail))
    (htail : '"' ∉ tail) : Dangling s ↔ tail = [] := by
  constructor
  · intro hd
    cases hd with
    | here h' => exact List.append_right_eq_self.mp (Option.some.inj (h.symm.trans h'))
    | next h' =>
      rw [List.append_cancel_left (Option.some.inj (h.symm.trans h'.1))] at htail
      simp at htail
  · rintro rfl
    exact .here h

/-- Behind a closed value, the rest dangles. -/
theorem dangling_closes (h : Closes s "\":\"".toList value rest) : Dangling s ↔ Dangling rest := by
  refine ⟨fun hd => ?_, .next h⟩
  cases hd with
  | here h' =>
    have hnil := List.append_right_eq_self.mp (Option.some.inj (h.1.symm.trans h'))
    exact absurd (List.append_eq_nil_iff.mp hnil).2 (List.cons_ne_nil _ _)
  | next h' hrest => exact (h.value_unique h').2 ▸ hrest

/-- Behind the end of the response the search fails. -/
theorem displayMembers_pastEnd (hpos : json.length < pos) :
    displayMembers json (fuel + 1) pos = .error .pastEnd := by
  rw [displayMembers, strstrAt, if_pos hpos]
  rfl

/-- **The loop** fails where the response dangles, and prints its lines elsewhere. -/
theorem displayMembers_cases (hpos : pos ≤ json.length) (hfuel : json.length < pos + fuel) :
    (Dangling (json.drop pos) ∧ displayMembers json fuel pos = .error .pastEnd) ∨
      (¬ Dangling (json.drop pos) ∧ ∃ lines, displayMembers json fuel pos = .ok lines) := by
  induction fuel generalizing pos with
  | zero => omega
  | succ fuel ih =>
    obtain hnone | ⟨tail, hsome, hquote⟩ | ⟨value, rest, hcloses⟩ :=
      closes_cases (json.drop pos) "\":\"".toList
    · refine .inr ⟨not_dangling_of_none hnone, [], ?_⟩
      rw [displayMembers, strstrAt_none hpos hnone]
      rfl
    · obtain ⟨p, hfind, hdrop, hle, hlen⟩ := strstrAt_some hpos hsome
      have htail : json.drop (p + 3) = tail := by
        rw [← List.drop_drop, hdrop]
        rfl
      have hplen : p + 3 + tail.length = json.length := by
        rw [← hlen, List.length_append]
        exact Nat.add_assoc _ _ _
      have hchr : strchrAt json (p + 3) '"' = .ok none := strchrAt_none (by omega) (by rwa [htail])
      obtain ⟨key, hkey⟩ := keyBefore_ok hdrop
      rw [displayMembers, hfind, dangling_open hsome hquote]
      simp only [ok_bind, hkey, hchr]
      cases tail with
      | nil =>
        -- the `":"` ends the response
        rw [List.length_nil] at hplen
        obtain ⟨fuel, rfl⟩ : ∃ n, fuel = n + 1 := ⟨fuel - 1, by omega⟩
        exact .inl ⟨rfl, displayMembers_pastEnd (by omega)⟩
      | cons c tail =>
        rw [List.length_cons] at hplen
        have hdrop' : json.drop (p + 3 + 1) = tail := by
          rw [← List.drop_drop, htail]
          rfl
        refine .inr ⟨List.cons_ne_nil c tail, ?_⟩
        obtain ⟨hd, -⟩ | ⟨-, hlines⟩ := @ih (p + 3 + 1) (by omega) (by omega)
        · rw [hdrop'] at hd
          exact absurd (List.mem_cons_of_mem c hd.quote_mem) hquote
        · exact hlines
    · obtain ⟨p, hfind, hdrop, hle, hlen⟩ := strstrAt_some hpos hcloses.1
      have hvalue : json.drop (p + 3) = value ++ '"' :: rest := by
        rw [← List.drop_drop, hdrop]
        rfl
      have hplen : p + 3 + value.length + 1 + rest.length = json.length := by
        rw [← hlen, List.length_append, List.length_append, List.length_cons]
        change _ = p + (3 + _)
        omega
      have hrest : json.drop (p + 3 + value.length + 1) = rest := by
        rw [Nat.add_assoc, ← List.drop_drop, hvalue, ← List.drop_drop, List.drop_left]
        rfl
      obtain ⟨key, hkey⟩ := keyBefore_ok hdrop
      rw [displayMembers, hfind, dangling_closes hcloses]
      simp only [ok_bind, hkey, strchrAt_append hvalue (by omega) hcloses.2, cut_append hvalue]
      have hnext := @ih (p + 3 + value.length + 1) (by omega) (by omega)
      rw [hrest] at hnext
      obtain ⟨hd, herror⟩ | ⟨hd, lines, hlines⟩ := hnext
      · exact .inl ⟨hd, by rw [herror]; rfl⟩
      · rw [hlines, ok_bind]
        split
        · exact .inr ⟨hd, _, rfl⟩
        · exact .inr ⟨hd, _, rfl⟩

end Loop

/-! ## The whole response -/

section Response

variable {json status rest : Text}

theorem runsOff_closes (h : Closes json "\"status\":\"".toList status rest) :
    RunsOff json ↔ status ≠ "error".toList ∧ Dangling json := by
  constructor
  · rintro ⟨⟨status', rest', h', hne⟩, hd⟩
    exact ⟨(h.value_unique h').1 ▸ hne, hd⟩
  · rintro ⟨hne, hd⟩
    exact ⟨⟨status, rest, h, hne⟩, hd⟩

/-- Two searches answer an error. -/
theorem displayResponse_error {response : Text}
    (h : Closes (cString response) "\"status\":\"".toList "error".toList rest) :
    ∃ lines, displayResponse response = .ok lines := by
  obtain ⟨message, hmessage⟩ := valueBehind_ok (cString response) "\"message\":\"".toList
  rw [displayResponse]
  simp only [valueBehind_closes h, ok_bind, beq_self_eq_true, if_true, hmessage]
  cases message with
  | none => exact ⟨_, rfl⟩
  | some message => exact ⟨_, rfl⟩

end Response

/-- **The scan stays inside a response exactly when it does not run off**, and then it ends with
what it prints; otherwise it reads behind the NUL. -/
theorem display_response_iff (response : Text) :
    ((∃ lines, displayResponse response = .ok lines) ↔ ¬ RunsOff (cString response)) ∧
      (displayResponse response = .error .pastEnd ↔ RunsOff (cString response)) := by
  suffices h : (RunsOff (cString response) ∧ displayResponse response = .error .pastEnd) ∨
      (¬ RunsOff (cString response) ∧ ∃ lines, displayResponse response = .ok lines) by
    obtain ⟨hoff, herror⟩ | ⟨hoff, hlines⟩ := h
    · refine ⟨iff_of_false ?_ (not_not_intro hoff), iff_of_true herror hoff⟩
      rintro ⟨lines, hlines⟩
      rw [herror] at hlines
      cases hlines
    · obtain ⟨lines, hlines⟩ := hlines
      refine ⟨iff_of_true ⟨lines, hlines⟩ hoff, iff_of_false ?_ hoff⟩
      rw [hlines]
      exact fun h => by cases h
  by_cases hstatus : ∃ status rest, Closes (cString response) "\"status\":\"".toList status rest
  case neg =>
    refine .inr ⟨fun h => hstatus ?_, [cString response], ?_⟩
    · obtain ⟨⟨status, rest, h, -⟩, -⟩ := h
      exact ⟨status, rest, h⟩
    · rw [displayResponse]
      simp only [valueBehind_none fun status rest h => hstatus ⟨status, rest, h⟩, ok_bind]
      rfl
  obtain ⟨status, rest, h⟩ := hstatus
  rw [runsOff_closes h]
  by_cases herror : status = "error".toList
  · subst herror
    exact .inr ⟨fun hoff => hoff.1 rfl, displayResponse_error h⟩
  · obtain ⟨kind, hkind⟩ := valueBehind_ok (cString response) "\"kind\":\"".toList
    have hloop := displayMembers_cases (Nat.zero_le (cString response).length)
      (show _ < 0 + ((cString response).length + 1) by omega)
    rw [displayResponse]
    simp only [valueBehind_closes h, ok_bind, beq_iff_eq, herror, if_false, hkind]
    obtain ⟨hd, hfault⟩ | ⟨hd, lines, hlines⟩ := hloop
    · refine .inl ⟨⟨herror, hd⟩, ?_⟩
      rw [hfault]
      rfl
    · refine .inr ⟨fun hoff => hd hoff.2, ?_⟩
      rw [hlines]
      exact ⟨_, rfl⟩

/-- **An answer cut in front of its message** sends the scan behind the NUL. -/
theorem cut_answer_runs_off : displayResponse "\x7b\"status\":\"ok\",\"message\":\"".toList
    = .error .pastEnd := by decide +kernel

end MiniDB.Network
