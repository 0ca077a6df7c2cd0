import MiniDB.Core.Text

/-!
# Network/Protocol — lines on a connection, and the requests in them

A message is a line.  A connection is the stream of characters that have arrived on it; at its end
the peer has closed.  A request is JSON that nobody parses: a value is what stands between the first
`"key":"` and the next quote.
-/

namespace MiniDB.Network

open MiniDB.Core

/-! ## Lines -/

/-- `MAX_MSG`. -/
def maxMsg : Nat := 8192

/-- What `send_line` puts on the connection. -/
def sendLine (msg : Text) : Text := cString msg ++ ['\n']

/-- The loop of `recv_line`, with room for `n` more characters: the line, and the rest of the
stream. -/
def recvLoop : Nat → Text → Text × Text
  | 0, stream => ([], stream)
  | _ + 1, [] => ([], [])
  | n + 1, c :: stream =>
    if c == '\n' then ([], stream)
    else if c != '\r' then (c :: (recvLoop n stream).1, (recvLoop n stream).2)
    else recvLoop (n + 1) stream

def recvLine (stream : Text) : Text × Text :=
  let (buf, stream) := recvLoop (maxMsg - 1) stream
  (cString buf, stream)

/-! ## Requests -/

/-- The value of a JSON string key; empty if it is not found. -/
def jsonGetString (json key : Text) : Text :=
  let pattern := snprintf 256 ('"' :: cString key ++ "\":\"".toList)
  match strstr (cString json) pattern with
  | none => []
  | some pos =>
    let pos := pos.drop pattern.length
    match strchr pos '"' with
    | none => []
    | some stop => pos.take (pos.length - stop.length)

def parseRequestSql (json : Text) : Text :=
  let type := jsonGetString json "type".toList
  if type.isEmpty || type != "sql".toList then [] else jsonGetString json "sql".toList

def isExitRequest (json : Text) : Bool := jsonGetString json "type".toList == "exit".toList

/-- The request `send_sql` builds, in a buffer of 8192 bytes. -/
def requestLine (sql : Text) : Text :=
  snprintf maxMsg ("\x7b\"type\":\"sql\",\"sql\":\"".toList ++ cString sql ++ "\"\x7d".toList)

/-- The SQL text the server takes from the next line of a connection; an empty line ends the
connection, and an exit request the server. -/
def serverReads (stream : Text) : Option Text :=
  let request := (recvLine stream).1
  if request.isEmpty || isExitRequest request then none else some (parseRequestSql request)

/-! ## Lines that arrive -/

/-- A character that ends no line goes into the buffer. -/
theorem recvLoop_cons {n : Nat} {c : Char} (hnl : c ≠ '\n') (hcr : c ≠ '\r') (stream : Text) :
    recvLoop (n + 1) (c :: stream) = (c :: (recvLoop n stream).1, (recvLoop n stream).2) := by
  rw [recvLoop, if_neg (by simpa using hnl), if_pos (by simpa using hcr)]

/-- **A line that fits is received as it was sent**; when it fills the buffer its newline stays in
the stream. -/
theorem recvLoop_line {n : Nat} {msg : Text} (rest : Text) (hnl : '\n' ∉ msg) (hcr : '\r' ∉ msg)
    (hn : msg.length ≤ n) : recvLoop n (msg ++ '\n' :: rest)
      = (msg, if msg.length < n then rest else '\n' :: rest) := by
  induction msg generalizing n with
  | nil => cases n <;> rfl
  | cons c msg ih =>
    obtain ⟨n, rfl⟩ : ∃ m, n = m + 1 := ⟨n - 1, by simp at hn; omega⟩
    obtain ⟨hc, hnl⟩ := not_or.mp (mt List.mem_cons.mpr hnl)
    obtain ⟨hc', hcr⟩ := not_or.mp (mt List.mem_cons.mpr hcr)
    rw [List.cons_append, recvLoop_cons (Ne.symm hc) (Ne.symm hc'),
      ih hnl hcr (by simpa using hn)]
    simp

/-- **A line that does not fit is cut at the end of the buffer**, and its rest is the next line. -/
theorem recvLoop_long {n : Nat} {msg : Text} (rest : Text) (hnl : '\n' ∉ msg) (hcr : '\r' ∉ msg)
    (hn : n ≤ msg.length) : recvLoop n (msg ++ rest) = (msg.take n, msg.drop n ++ rest) := by
  induction msg generalizing n with
  | nil =>
    obtain rfl : n = 0 := by simpa using hn
    cases rest <;> rfl
  | cons c msg ih =>
    cases n with
    | zero => rfl
    | succ n =>
      obtain ⟨hc, hnl⟩ := not_or.mp (mt List.mem_cons.mpr hnl)
      obtain ⟨hc', hcr⟩ := not_or.mp (mt List.mem_cons.mpr hcr)
      rw [List.cons_append, recvLoop_cons (Ne.symm hc) (Ne.symm hc'),
        ih hnl hcr (by simpa using hn)]
      rfl

end MiniDB.Network
