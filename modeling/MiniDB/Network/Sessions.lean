import MiniDB.Network.Server

/-!
# Network/Sessions — several clients, one selected database

A run of the server is a list of requests, each of some client.  The executor has one selected
database, and every USE, whoever sends it, leaves it for a fresh one.  So a client is not served as
if it were alone once another client has sent a USE (`not_isolated`).

What the design does promise is **`undisturbed_asAlone`**: a client that has selected a database is
answered, and acts on the tables of it, as if another client had sent nothing at all, as long as no
request of the others since then has touched the selected database.  What they did before does not
matter: a USE starts from a fresh database, and no table statement looks at the disk.
-/

namespace MiniDB.Network

open MiniDB.Core MiniDB.Parser MiniDB.Storage MiniDB.Execution Machine

variable {Client : Type} [DecidableEq Client]

/-! ## Requests of several clients -/

/-- The database a request selects. -/
def usedBy (line : Text) : Option Text :=
  match readRequest line with
  | some (.statement stmt) => if stmt.kind = .use then some stmt.useStmt.databaseName else none
  | _ => none

/-- A request with a table statement. -/
def asksTable (line : Text) : Bool :=
  match readRequest line with
  | some (.statement stmt) => onTables stmt
  | _ => false

def endsServer (line : Text) : Bool :=
  match readRequest line with
  | some .exit => true
  | _ => false

/-- A request, whoever it is from. -/
def serve (s : Server) (r : Client × Text) : Option (Option Text × Server) := s.step r.2

def isNotFrom (B : Client) (r : Client × Text) : Bool := r.1 != B

/-- Behind the requests, a request of `A` meets the database `a`, unless none is selected, and the
same tables as without the requests of `B`; it gets the same answer, and it leaves the same tables
and removes the same files. -/
def AsAlone (B : Client) (a : Text) (s₀ : Server) (requests : List (Client × Text)) (line : Text) :
    Prop :=
  ∃ rs s rs' s' answer t t', exec serve s₀ requests = some (rs, s) ∧
    exec serve s₀ (requests.filter (isNotFrom B)) = some (rs', s') ∧
    (s.executor.currentDb = none ∨ s.executor.currentDbName = a) ∧
    s.executor.memory = s'.executor.memory ∧
    s.step line = some (answer, t) ∧ s'.step line = some (answer, t') ∧
    t.executor.memory = t'.executor.memory ∧
    ∃ paths : List Text, t.executor.disk = paths.foldl Disk.remove s.executor.disk ∧
      t'.executor.disk = paths.foldl Disk.remove s'.executor.disk

/-- The database the last USE of a client names. -/
def lastUse (A : Client) (requests : List (Client × Text)) : Option Text :=
  (requests.filterMap fun r => if r.1 = A then usedBy r.2 else none).getLast?

/-- As long as the server runs, two clients that use different databases do not notice each other:
every table statement is served as without the requests of the other. -/
def Isolated (Client : Type) [DecidableEq Client] : Prop :=
  ∀ (A B : Client) (a b : Text) (requests : List (Client × Text)) (disk : Disk) (line : Text),
    A ≠ B → (∀ r ∈ requests, endsServer r.2 = false) → lastUse A requests = some a →
    lastUse B requests = some b → a ≠ b → asksTable line = true →
    AsAlone B a (.start disk) requests line

/-- Where the request is served it does not touch the selected database and its tables, and does not
stop the server. -/
def LeavesAlone (s : Server) (line : Text) : Prop :=
  ∀ answer s', s.step line = some (answer, s') →
    s'.executor.memory = s.executor.memory ∧ s'.running = s.running

/-- `A` has selected the database `a`; since then it has sent no other USE, and no request of the
others has touched the selected database. -/
structure Undisturbed (disk : Disk) (A : Client) (a : Text) (before : List (Client × Text))
    (use : Text) (behind : List (Client × Text)) : Prop where
  selects : usedBy use = some a
  running : ∀ r ∈ before, endsServer r.2 = false
  own : ∀ r ∈ behind, r.1 = A → usedBy r.2 = none
  others : ∀ ⦃rs s⦄, exec serve (.start disk) (before ++ [(A, use)]) = some (rs, s) →
    Along serve (fun s r => r.1 ≠ A → LeavesAlone s r.2) s behind

/-! ## One request -/

section Requests

variable {s u : Server} {line a : Text}

/-- Both servers run, and keep their data in the same place. -/
structure Alive (s u : Server) : Prop where
  dataRoot : s.executor.dataRoot = u.executor.dataRoot
  running : s.running = true ∧ u.running = true
  wellFormed : s.executor.WellFormed ∧ u.executor.WellFormed

/-- The two servers have one memory. -/
structure Joined (s u : Server) : Prop where
  memory : s.executor.memory = u.executor.memory
  running : s.running = u.running
  wellFormed : s.executor.WellFormed

/-- The server selects the database `a`, or none. -/
def Selects (a : Text) (s : Server) : Prop :=
  s.executor.currentDbName = a ∨ s.executor.currentDbName = []

theorem Selects.of_memory {s' : Server} (h : Selects a s)
    (hmem : s'.executor.memory = s.executor.memory) : Selects a s' := by
  rwa [Selects, (Executor.memory_eq_iff.mp hmem).2.1]

/-- A server that runs goes on running through any request but an exit. -/
theorem step_alive (hs : s.executor.WellFormed) (hrun : s.running = true)
    (hline : endsServer line = false) : ∃ answer s', s.step line = some (answer, s') ∧
      s'.executor.WellFormed ∧ s'.executor.dataRoot = s.executor.dataRoot ∧ s'.running = true := by
  obtain ⟨request, hreq, hw⟩ := readRequest_defined line
  obtain ⟨answer, s', hstep, hs', hroot, hrun'⟩ := Server.respond_defined hs hw
  refine ⟨answer, s', ?_, hs', hroot, (hrun' ?_).trans hrun⟩
  · rw [Server.step_of_readRequest hrun hreq, hstep]
  · rintro rfl
    simp [endsServer, hreq] at hline

/-- **A USE makes the memories one.** -/
theorem Alive.step_use (h : Alive s u) (hline : usedBy line = some a) :
    ∃ r s' q u', s.step line = some (r, s') ∧ u.step line = some (q, u') ∧ Joined s' u' ∧
      Selects a s' := by
  obtain ⟨request, hreq, hw⟩ := readRequest_defined line
  cases request with
  | statement stmt =>
    simp only [usedBy, hreq, Option.ite_none_right_eq_some, Option.some.injEq] at hline
    obtain ⟨hk, rfl⟩ := hline
    rw [Server.step_of_readRequest h.running.1 hreq, Server.step_of_readRequest h.running.2 hreq]
    have huse (e : Executor) : e.execute stmt = e.execUse stmt.useStmt := by
      rw [Executor.execute, hk]
    obtain ⟨r, e, hexec, hmoves⟩ := Executor.execute_moves h.wellFormed.1 (.inl (hw stmt rfl))
    have hwf := hmoves.wellFormed h.wellFormed.1
    cases (huse _).symm.trans hexec
    simp only [Server.respond, huse, Executor.execUse]
    refine ⟨_, _, _, _, rfl, rfl, ⟨?_, h.running.1.trans h.running.2.symm, hwf⟩, .inl rfl⟩
    exact Executor.memory_eq_iff.mpr ⟨h.dataRoot, rfl, by rw [h.dataRoot]⟩
  | _ => simp [usedBy, hreq] at hline

/-- **A request that both servers take keeps the memories one.** -/
theorem Joined.step (h : Joined s u) (line : Text) :
    ∃ r s' q u', s.step line = some (r, s') ∧ u.step line = some (q, u') ∧ Joined s' u' := by
  obtain ⟨request, hreq, hw⟩ := readRequest_defined line
  cases hrun : s.running with
  | false =>
    exact ⟨none, s, none, u, Server.step_of_stopped hrun line,
      Server.step_of_stopped (h.running.symm.trans hrun) line, h⟩
  | true =>
    rw [Server.step_of_readRequest hrun hreq,
      Server.step_of_readRequest (h.running.symm.trans hrun) hreq]
    cases request with
    | hangUp => exact ⟨_, _, _, _, rfl, rfl, h⟩
    | refused message => exact ⟨_, _, _, _, rfl, rfl, h⟩
    | exit =>
      have hs := Executor.memory_shutdown s.executor
      have hu := Executor.memory_shutdown u.executor
      exact ⟨_, _, _, _, rfl, rfl, hs.trans (h.memory.trans hu.symm), rfl,
        h.wellFormed.of_memory hs⟩
    | statement stmt =>
      obtain ⟨r, e, hexec, hmoves⟩ := Executor.execute_moves h.wellFormed (.inl (hw stmt rfl))
      have hrel := Executor.memory_execute h.memory stmt
      rw [hexec] at hrel
      obtain ⟨⟨q, e'⟩, hexec', hmem⟩ := Executor.exists_of_rel hrel
      simp only [Server.respond, hexec, hexec']
      exact ⟨_, _, _, _, rfl, rfl, hmem, h.running, hmoves.wellFormed h.wellFormed⟩

/-- Only a USE selects another database. -/
theorem Selects.step {r : Option Text} {s' : Server} (h : Selects a s) (hline : usedBy line = none)
    (hstep : s.step line = some (r, s')) : Selects a s' := by
  rcases Server.step_cases hstep with rfl | ⟨request, hreq, hstep⟩
  · exact h
  cases request with
  | statement stmt =>
    have hk : stmt.kind ≠ .use := by simpa [usedBy, hreq] using hline
    obtain ⟨⟨r, e⟩, hexec, hstep⟩ := Option.bind_eq_some_iff.mp hstep
    cases hstep
    rcases Executor.name_execute hk hexec with hname | hname
    · rwa [Selects, hname]
    · exact .inr hname
  | exit =>
    cases hstep
    exact h.of_memory (Executor.memory_shutdown s.executor)
  | hangUp =>
    cases hstep
    exact h
  | refused message =>
    cases hstep
    exact h

/-- A request that has no way to touch the selected database, when its name is `a`. -/
def sparing (a : Text) (line : Text) : Bool :=
  match readRequest line with
  | some .exit => false
  | some (.statement stmt) => spares a stmt
  | _ => true

theorem leavesAlone_of_sparing (h : Selects a s) (hline : sparing a line = true) :
    LeavesAlone s line := by
  intro answer s' hstep
  rcases Server.step_cases hstep with rfl | ⟨request, hreq, hstep⟩
  · exact ⟨rfl, rfl⟩
  cases request with
  | statement stmt =>
    have hspares : spares a stmt = true := by simpa [sparing, hreq] using hline
    obtain ⟨⟨r, e⟩, hexec, hstep⟩ := Option.bind_eq_some_iff.mp hstep
    cases hstep
    exact ⟨Executor.memory_of_spares (.inl (readRequest_wellFormed hreq)) hspares h hexec, rfl⟩
  | exit => simp [sparing, hreq] at hline
  | hangUp =>
    cases hstep
    exact ⟨rfl, rfl⟩
  | refused message =>
    cases hstep
    exact ⟨rfl, rfl⟩

/-- **A table statement gets one answer on both servers**, and does the same to them. -/
theorem Joined.step_table (h : Joined s u) (hline : asksTable line = true) :
    ∃ answer t t', s.step line = some (answer, t) ∧ u.step line = some (answer, t') ∧
      t.executor.memory = t'.executor.memory ∧ ∃ paths : List Text,
        t.executor.disk = paths.foldl Disk.remove s.executor.disk ∧
        t'.executor.disk = paths.foldl Disk.remove u.executor.disk := by
  obtain ⟨request, hreq, hw⟩ := readRequest_defined line
  cases hrun : s.running with
  | false =>
    exact ⟨none, s, u, Server.step_of_stopped hrun line,
      Server.step_of_stopped (h.running.symm.trans hrun) line, h.memory, [], rfl, rfl⟩
  | true =>
    rw [Server.step_of_readRequest hrun hreq,
      Server.step_of_readRequest (h.running.symm.trans hrun) hreq]
    cases request with
    | statement stmt =>
      have htables : onTables stmt = true := by simpa [asksTable, hreq] using hline
      obtain ⟨r, e, hexec, -⟩ := Executor.execute_moves h.wellFormed (.inl (hw stmt rfl))
      have hrel := Executor.alike_execute h.memory htables
      rw [hexec] at hrel
      obtain ⟨⟨q, e'⟩, hexec', hanswer, hmem, hfiles⟩ := Executor.exists_of_rel hrel
      obtain rfl : r = q := hanswer
      simp only [Server.respond, hexec, hexec']
      exact ⟨_, _, _, rfl, rfl, hmem, hfiles⟩
    | _ => simp [asksTable, hreq] at hline

end Requests

/-! ## A whole run -/

section Runs

variable {A B : Client} {s u : Server} {a : Text}

/-- In front of the USE the servers may part, but they stay alive. -/
theorem together_before {r : Client × Text} (h : Alive s u) (hr : endsServer r.2 = false) :
    Together serve Alive (isNotFrom B) s u [r] := by
  obtain ⟨answer, s', hstep, hs', hroot, hrun⟩ := step_alive h.wellFormed.1 h.running.1 hr
  cases hkeep : isNotFrom B r with
  | false =>
    exact together_removed hkeep hstep
      ⟨hroot.trans h.dataRoot, ⟨hrun, h.running.2⟩, hs', h.wellFormed.2⟩
  | true =>
    obtain ⟨answer', u', hstep', hu', hroot', hrun'⟩ :=
      step_alive h.wellFormed.2 h.running.2 hr
    exact together_kept hkeep hstep hstep'
      ⟨hroot.trans (h.dataRoot.trans hroot'.symm), ⟨hrun, hrun'⟩, hs', hu'⟩

/-- **Behind the USE the servers stay one**, request by request. -/
theorem together_behind (hAB : A ≠ B) {r : Client × Text} (h : Joined s u ∧ Selects a s)
    (hr : (r.1 = A → usedBy r.2 = none) ∧ (r.1 ≠ A → LeavesAlone s r.2)) :
    Together serve (fun s u => Joined s u ∧ Selects a s) (isNotFrom B) s u [r] := by
  obtain ⟨answer, s', answer', u', hstep, hstep', hjoined⟩ := h.1.step r.2
  have hselects : Selects a s' := by
    by_cases hA : r.1 = A
    · exact h.2.step (hr.1 hA) hstep
    · exact h.2.of_memory (hr.2 hA _ _ hstep).1
  cases hkeep : isNotFrom B r with
  | true => exact together_kept hkeep hstep hstep' ⟨hjoined, hselects⟩
  | false =>
    have hB : r.1 = B := by simpa [isNotFrom] using hkeep
    obtain ⟨hmem, hrun⟩ := hr.2 (hB ▸ hAB.symm) _ _ hstep
    exact together_removed hkeep hstep
      ⟨⟨hmem.trans h.1.memory, hrun.trans h.1.running, hjoined.wellFormed⟩, hselects⟩

/-- **An undisturbed client is served as if it were alone**: behind a USE of its own it meets its
database, is answered, and acts on the tables, as if any one of the other clients had sent
nothing. -/
theorem undisturbed_asAlone {disk : Disk} {before behind : List (Client × Text)} {use line : Text}
    (hAB : A ≠ B) (h : Undisturbed disk A a before use behind) (hline : asksTable line = true) :
    AsAlone B a (.start disk) (before ++ [(A, use)] ++ behind) line := by
  have hstart : Alive (.start disk) (.start disk) :=
    ⟨rfl, ⟨rfl, rfl⟩, Executor.new_wellFormed _ _, Executor.new_wellFormed _ _⟩
  have hbefore : Together serve Alive (isNotFrom B) (.start disk) (.start disk) before := by
    refine together_of_steps together_before ?_ hstart
    rintro pre r post rs t rfl -
    exact h.running r (by simp)
  have huse {s u : Server} (hs : Alive s u) :
      Together serve (fun s u => Joined s u ∧ Selects a s) (isNotFrom B) s u [(A, use)] := by
    obtain ⟨r, s', q, u', hstep, hstep', hjoined⟩ := hs.step_use h.selects
    exact together_kept (bne_iff_ne.mpr hAB) hstep hstep' hjoined
  have hbehind {rs : List (Option Text)} {s u : Server}
      (hrun : exec serve (.start disk) (before ++ [(A, use)]) = some (rs, s))
      (hs : Joined s u ∧ Selects a s) :
      Together serve (fun s u => Joined s u ∧ Selects a s) (isNotFrom B) s u behind := by
    refine together_of_steps (together_behind hAB) ?_ hs
    intro pre r post qs t hsplit hpre
    have hmem : r ∈ behind := by simp [hsplit]
    exact ⟨h.own r hmem, h.others hrun hsplit hpre⟩
  obtain ⟨rs, s, rs', s', hrun, hrun', hjoined, hselects⟩ :=
    (hbefore.append fun _ => huse).append hbehind
  obtain ⟨answer, t, t', hstep, hstep', hmem, hfiles⟩ := hjoined.step_table hline
  refine ⟨rs, s, rs', s', answer, t, t', hrun, hrun', ?_, hjoined.memory, hstep, hstep', hmem,
    hfiles⟩
  exact hselects.symm.imp_left hjoined.wellFormed.name_iff.mp

end Runs

/-- Client 0 uses `b`, then client 1 uses `a` and makes a table; client 0 looks into it. -/
theorem undisturbed_asAlone_sample :
    AsAlone (0 : Nat) ['a'] (.start {})
      ([(0, requestLine "use b".toList)] ++ [(1, requestLine "use a".toList)]
        ++ [(1, requestLine "create table t (id int)".toList),
          (0, requestLine "select * from t".toList)])
      (requestLine "insert into t values (1)".toList) := by
  refine undisturbed_asAlone (A := 1) (by decide)
    ⟨by decide +kernel, by decide +kernel, by decide +kernel, ?_⟩ (by decide +kernel)
  intro rs s hrun pre r post qs t hsplit hpre hne
  rcases pre with _ | ⟨x, _ | ⟨y, pre⟩⟩
  · cases hsplit
    exact absurd rfl hne
  · cases hsplit
    have hname : (exec serve (.start {}) [((0 : Nat), requestLine "use b".toList),
        (1, requestLine "use a".toList), (1, requestLine "create table t (id int)".toList)]).map
          (·.2.executor.currentDbName) = some ['a'] := by decide +kernel
    have hboth := exec_append hrun hpre
    rw [List.append_assoc, List.singleton_append, List.singleton_append] at hboth
    rw [hboth] at hname
    exact leavesAlone_of_sparing (.inl (Option.some.inj hname)) (by decide +kernel)
  · cases pre <;> cases hsplit

/-- The last answer of a run. -/
def lastAnswer (s₀ : Server) (requests : List (Client × Text)) : Option (Option Text) :=
  (exec serve s₀ requests).bind fun p => p.1.getLast?

theorem AsAlone.lastAnswer_eq {A B : Client} {a line : Text} {s₀ : Server}
    {requests : List (Client × Text)} (h : AsAlone B a s₀ requests line) :
    lastAnswer s₀ (requests ++ [(A, line)])
      = lastAnswer s₀ (requests.filter (isNotFrom B) ++ [(A, line)]) := by
  obtain ⟨rs, s, rs', s', answer, t, t', hrun, hrun', -, -, hstep, hstep', -⟩ := h
  have hlast {s t : Server} (hs : s.step line = some (answer, t)) :
      exec serve s [(A, line)] = some ([answer], t) := by
    simp [exec, serve, hs]
  rw [lastAnswer, lastAnswer, exec_append hrun (hlast hstep), exec_append hrun' (hlast hstep')]
  simp

/-- The table that one client made is gone when the other has used its own database. -/
theorem not_isolated : ¬ Isolated Bool := by
  intro h
  have hasAlone := h true false ['a'] ['b']
    [(true, requestLine "use a".toList), (true, requestLine "create table t (id int)".toList),
      (false, requestLine "use b".toList)] {} (requestLine "insert into t values (1)".toList)
    (by decide) (by decide +kernel) (by decide +kernel) (by decide +kernel) (by decide)
    (by decide +kernel)
  exact absurd (hasAlone.lastAnswer_eq (A := true)) (by decide +kernel)

end MiniDB.Network
