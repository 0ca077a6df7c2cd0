import MiniDB.Machinery.Run
import MiniDB.Storage.Slots

/-!
# Storage/Catalog — a database is a finite map from names to tables with their indexes

The map of a database (`Database.entry`) is what `get_table` and `get_index` lead to.  Whatever is
created, dropped and written through these pointers, the three vectors stay in step and no name
occurs twice; each call changes the map at its own name only (`database_is_map`).  All this is about
names without NUL: a `const char*` can pass no other, and `create_table`, which is given a
`core::String`, looks for the part in front of the NUL (`createTable_nul`).
-/

namespace MiniDB.Storage

open MiniDB.Core Machine

/-- Calls on a database; `write` stands for everything done to a table and its index through the
pointers `get_table` and `get_index` return. -/
inductive TableCall where
  | create (name : Text) (columns : List Column)
  | drop (name : Text)
  | write (name : Text) (columns : List Column) (rows : List Row) (index : Index)

def TableCall.name : TableCall → Text
  | create name _ => name
  | drop name => name
  | write name _ _ _ => name

namespace Database

/-- The table and the index of a name. -/
def entry (db : Database) (name : Text) : Option (Table × Index) := do
  let i ← db.getTable name
  let j ← db.getIndex name
  return (← db.tables[i]?, ← db.indexes[j]?)

def writeTable (db : Database) (name : Text) (columns : List Column) (rows : List Row)
    (index : Index) : Option (Bool × Database) :=
  match db.getTable name, db.getIndex name with
  | some i, some j => do
    let table ← db.tables[i]?
    return (true, { db with
      tables := db.tables.set i { table with columns, rows }
      indexes := db.indexes.set j index })
  | _, _ => some (false, db)

/-- One call: what it returns, and the database and the disk after it. -/
def callStep : Database × Disk → TableCall → Option (Bool × (Database × Disk))
  | (db, disk), .create name columns =>
    let (ok, db) := db.createTable name columns
    some (ok, (db, disk))
  | (db, disk), .drop name => do
    let (ok, db, disk) ← db.dropTable name disk
    return (ok, (db, disk))
  | (db, disk), .write name columns rows index => do
    let (ok, db) ← db.writeTable name columns rows index
    return (ok, (db, disk))

/-- The vectors are views of one list of slots, with distinct names that hold no NUL. -/
def Catalogued (name dataDir : Text) (db : Database) : Prop :=
  ∃ slots, db = ofSlots name dataDir slots ∧ (slots.map (·.table.name)).Nodup ∧
    ∀ s ∈ slots, '\x00' ∉ s.table.name

section Entries

variable {name dataDir n : Text} {slots pre post : List Slot} {s : Slot}

/-- The entry of a name is the first slot that carries it. -/
theorem entry_ofSlots (h0 : '\x00' ∉ n) (slots : List Slot) :
    (ofSlots name dataDir slots).entry n
      = (slots.find? (·.table.name == n)).map fun s => (s.table, s.index) := by
  rcases absent_or_split slots n with habsent | ⟨pre, s, post, rfl, hs, hpre⟩
  · have hnone : slots.find? (·.table.name == n) = none := by
      simpa [List.find?_eq_none, Absent] using habsent
    rw [entry, getTable_absent h0 habsent, hnone]
    rfl
  · have hnone : pre.find? (·.table.name == n) = none := by
      simpa [List.find?_eq_none, Absent] using hpre
    rw [entry, getIndex_eq, getTable_present h0 hs hpre, List.find?_append, hnone]
    simp [tables_split, indexes_split, hs]

theorem mem_tableNames : n ∈ (ofSlots name dataDir slots).tableNames ↔ ¬ Absent slots n := by
  simp [ofSlots, Absent]

/-- A slot in between changes no other name. -/
theorem find_other (hs : s.table.name ≠ n) (pre post : List Slot) :
    (pre ++ s :: post).find? (·.table.name == n) = (pre ++ post).find? (·.table.name == n) := by
  simp [List.find?_append, hs]

end Entries

/-! ## What a call does to the map -/

section Calls

variable {name dataDir n : Text} {db db' : Database} {disk disk' : Disk}

/-- Every name but `n` keeps its table and its index. -/
def SameElsewhere (n : Text) (db db' : Database) : Prop :=
  ∀ m, '\x00' ∉ m → m ≠ n → db'.entry m = db.entry m

/-- **Creating fails exactly on a name that is there**, and then changes nothing. -/
theorem create_spec (h : Catalogued name dataDir db) (h0 : '\x00' ∉ n) (columns : List Column) :
    (n ∈ db.tableNames → db.createTable n columns = (false, db)) ∧
    (n ∉ db.tableNames → ∃ db', db.createTable n columns = (true, db') ∧
      Catalogued name dataDir db' ∧ db'.entry n = some (freshTable n dataDir columns, {}) ∧
      SameElsewhere n db db') := by
  obtain ⟨slots, rfl, hnodup, hnul⟩ := h
  rw [mem_tableNames]
  rcases absent_or_split slots n with habsent | ⟨pre, s, post, rfl, hs, hpre⟩
  · refine ⟨fun h => absurd habsent h, fun _ => ?_⟩
    refine ⟨_, createTable_absent h0 habsent columns, ?_, ?_, ?_⟩
    · refine ⟨_, rfl, ?_, ?_⟩
      · rw [List.map_append, List.map_singleton, ← List.concat_eq_append]
        refine List.Nodup.concat (fun hmem => ?_) hnodup
        obtain ⟨s, hs, hname⟩ := List.mem_map.mp hmem
        exact habsent s hs hname
      · rw [List.forall_mem_append, List.forall_mem_singleton]
        exact ⟨hnul, h0⟩
    · have hnone : slots.find? (·.table.name == n) = none := by
        simpa [List.find?_eq_none, Absent] using habsent
      rw [entry_ofSlots h0, List.find?_append, hnone]
      simp [freshTable, Table.inDir]
    · intro m hm hne
      have hother : (freshTable n dataDir columns).name ≠ m := hne.symm
      rw [entry_ofSlots hm, entry_ofSlots hm, find_other hother, List.append_nil]
  · have hthere : ¬ Absent (pre ++ s :: post) n := fun h => h s (by simp) hs
    exact ⟨fun _ => createTable_present h0 hs hpre columns, fun h => absurd hthere h⟩

/-- **Dropping succeeds exactly on a name that is there**, and takes it away. -/
theorem drop_spec (h : Catalogued name dataDir db) (h0 : '\x00' ∉ n) (disk : Disk) :
    (n ∉ db.tableNames → db.dropTable n disk = some (false, db, disk)) ∧
    (n ∈ db.tableNames → ∃ db' disk', db.dropTable n disk = some (true, db', disk') ∧
      Catalogued name dataDir db' ∧ db'.entry n = none ∧ SameElsewhere n db db') := by
  obtain ⟨slots, rfl, hnodup, hnul⟩ := h
  rw [mem_tableNames, not_not]
  rcases absent_or_split slots n with habsent | ⟨pre, s, post, rfl, hs, hpre⟩
  · exact ⟨fun _ => dropTable_absent h0 habsent disk, fun h => absurd habsent h⟩
  · have hthere : ¬ Absent (pre ++ s :: post) n := fun h => h s (by simp) hs
    refine ⟨fun h => absurd h hthere, fun _ => ?_⟩
    have hsub : (pre ++ post).Sublist (pre ++ s :: post) :=
      (List.Sublist.refl pre).append (List.sublist_cons_self s post)
    refine ⟨_, _, dropTable_present h0 hs hpre disk, ⟨_, rfl, hnodup.sublist (hsub.map _), ?_⟩,
      ?_, ?_⟩
    · exact fun x hx => hnul x (hsub.subset hx)
    · have hpost : Absent post n := by
        rw [List.map_append, List.map_cons] at hnodup
        have hnot := (List.nodup_cons.mp (List.nodup_append.mp hnodup).2.1).1
        intro x hx hname
        exact hnot (List.mem_map.mpr ⟨x, hx, hname.trans hs.symm⟩)
      have hnone : (pre ++ post).find? (·.table.name == n) = none := by
        rw [List.find?_eq_none, List.forall_mem_append]
        exact ⟨by simpa [Absent] using hpre, by simpa [Absent] using hpost⟩
      rw [entry_ofSlots h0, hnone]
      rfl
    · intro m hm hne
      have hother : s.table.name ≠ m := fun h => hne (h.symm.trans hs)
      rw [entry_ofSlots hm, entry_ofSlots hm, find_other hother]

/-- Writing through the pointers replaces the contents of one entry. -/
theorem write_spec (h : Catalogued name dataDir db) (h0 : '\x00' ∉ n) (columns : List Column)
    (rows : List Row) (index : Index) :
    ∃ ok db', db.writeTable n columns rows index = some (ok, db') ∧
      Catalogued name dataDir db' ∧ SameElsewhere n db db' := by
  obtain ⟨slots, rfl, hnodup, hnul⟩ := h
  rcases absent_or_split slots n with habsent | ⟨pre, s, post, rfl, hs, hpre⟩
  · refine ⟨false, _, ?_, ⟨slots, rfl, hnodup, hnul⟩, fun _ _ _ => rfl⟩
    rw [writeTable, getTable_absent h0 habsent]
  · let t : Slot := ⟨{ s.table with columns, rows }, index⟩
    refine ⟨true, ofSlots name dataDir (pre ++ t :: post), ?_, ⟨_, rfl, ?_, ?_⟩, ?_⟩
    · rw [writeTable, getIndex_eq, getTable_present h0 hs hpre]
      simp only [tables_split, Option.bind_eq_bind, Option.bind_some]
      exact congrArg (fun db => some (true, db)) (set_split (s := s) rfl)
    · rw [List.map_append, List.map_cons] at hnodup ⊢
      exact hnodup
    · rw [List.forall_mem_append, List.forall_mem_cons] at hnul ⊢
      exact hnul
    · intro m hm hne
      have hother : s.table.name ≠ m := fun h => hne (h.symm.trans hs)
      rw [entry_ofSlots hm, entry_ofSlots hm, find_other (s := t) hother, find_other hother]

/-- A call keeps the database catalogued. -/
theorem callStep_catalogued {c : TableCall} {ok : Bool} {disk disk' : Disk}
    (h : Catalogued name dataDir db) (h0 : '\x00' ∉ c.name)
    (hstep : callStep (db, disk) c = some (ok, (db', disk'))) : Catalogued name dataDir db' := by
  cases c with
  | create n columns =>
    have hspec := create_spec (n := n) h h0 columns
    have hdb : db' = (db.createTable n columns).2 := by
      simp only [callStep, Option.some.injEq, Prod.mk.injEq] at hstep
      exact hstep.2.1.symm
    rw [hdb]
    by_cases hmem : n ∈ db.tableNames
    · rwa [hspec.1 hmem]
    · obtain ⟨_, heq, hcat, -⟩ := hspec.2 hmem
      rwa [heq]
  | drop n =>
    have hspec := drop_spec (n := n) h h0 disk
    obtain ⟨⟨ok', db₁, disk₁⟩, hdrop, heq⟩ := Option.bind_eq_some_iff.mp hstep
    cases heq
    by_cases hmem : n ∈ db.tableNames
    · obtain ⟨_, _, heq, hcat, -⟩ := hspec.2 hmem
      rw [heq] at hdrop
      cases hdrop
      exact hcat
    · rw [hspec.1 hmem] at hdrop
      cases hdrop
      exact h
  | write n columns rows index =>
    obtain ⟨ok', db₁, heq, hcat, -⟩ := write_spec (n := n) h h0 columns rows index
    obtain ⟨⟨_, _⟩, hwrite, hpair⟩ := Option.bind_eq_some_iff.mp hstep
    cases hpair
    rw [heq] at hwrite
    cases hwrite
    exact hcat

end Calls

/-- **A database is a finite map from names to tables with their indexes.**  After any creations,
drops and writes on a fresh database, with names that hold no NUL: the vectors have one length, the
names are distinct, and every table is at the position of its name.  A creation fails on a name that
is there, changing nothing, and otherwise makes a table with its columns, no rows and an empty
index; a drop succeeds on a name that is there and takes it away; and both leave every other name
its own rows and its own index entries. -/
theorem database_is_map {name dataDir : Text} {disk₀ disk : Disk} {db : Database}
    (h : Reaches callStep (fun _ c => '\x00' ∉ c.name) ({ name, dataDir }, disk₀) (db, disk)) :
    db.tables.length = db.tableNames.length ∧ db.indexes.length = db.tableNames.length ∧
    db.tableNames.Nodup ∧ db.tables.map Table.name = db.tableNames ∧
    ∀ n, '\x00' ∉ n →
      (∀ columns,
        (n ∈ db.tableNames → db.createTable n columns = (false, db)) ∧
        (n ∉ db.tableNames → ∃ db' table, db.createTable n columns = (true, db') ∧
          db'.entry n = some (table, {}) ∧ table.columns = columns ∧ table.rows = [] ∧
          SameElsewhere n db db')) ∧
      (n ∉ db.tableNames → db.dropTable n disk = some (false, db, disk)) ∧
      (n ∈ db.tableNames → ∃ db' disk', db.dropTable n disk = some (true, db', disk') ∧
        db'.entry n = none ∧ SameElsewhere n db db') := by
  have hcat : Catalogued name dataDir db :=
    h.invariant (I := fun s => Catalogued name dataDir s.1) ⟨[], rfl, List.nodup_nil, nofun⟩
      fun hI hok hstep => callStep_catalogued hI hok hstep
  obtain ⟨slots, hslots, hnodup, -⟩ := id hcat
  refine ⟨?_, ?_, ?_, ?_, fun n h0 => ⟨fun columns => ?_, ?_, ?_⟩⟩
  · simp [hslots, ofSlots]
  · simp [hslots, ofSlots]
  · rw [hslots]
    exact hnodup
  · simp [hslots, ofSlots]
  · refine ⟨(create_spec hcat h0 columns).1, fun hmem => ?_⟩
    obtain ⟨db', heq, -, hentry, hsame⟩ := (create_spec hcat h0 columns).2 hmem
    exact ⟨db', _, heq, hentry, rfl, rfl, hsame⟩
  · exact (drop_spec hcat h0 disk).1
  · intro hmem
    obtain ⟨db', disk', heq, -, hentry, hsame⟩ := (drop_spec hcat h0 disk).2 hmem
    exact ⟨db', disk', heq, hentry, hsame⟩

/-- The database after two creations, one write and the drop of the first table. -/
theorem database_is_map_populated :
    let table : Table :=
      { Table.inDir ['b'] [] with columns := [{ name := ['x'] }], rows := [[.int 7]] }
    let index : Index := { entries := [{ key := 7, rowId := 0 }] }
    let db : Database := { tableNames := [['b']], tables := [table], indexes := [index] }
    db.entry ['b'] = some (table, index) ∧ db.tableNames.Nodup ∧
      ['b'] ∈ db.tableNames ∧ db.createTable ['b'] [] = (false, db) := by
  intro table index db
  let calls : List TableCall := [.create ['a'] [], .create ['b'] [],
    .write ['b'] [{ name := ['x'] }] [[.int 7]] index, .drop ['a']]
  have hexec : exec callStep ({}, {}) calls = some ([true, true, true, true], (db, {})) := by rfl
  have hnul : ∀ c ∈ calls, '\x00' ∉ c.name := by decide
  have hspec := database_is_map ((run_of_exec hexec).reaches fun _ c hc => hnul c hc)
  have hmem : ['b'] ∈ db.tableNames := by decide
  exact ⟨rfl, hspec.2.2.1, hmem, ((hspec.2.2.2.2 ['b'] (by decide)).1 []).1 hmem⟩

/-- A name with a NUL is not found again, and is created twice. -/
theorem createTable_nul : ¬ ∀ (db : Database) (disk : Disk),
    Reaches callStep (fun _ _ => True) ({}, {}) (db, disk) → db.tableNames.Nodup := by
  intro h
  let calls : List TableCall := [.create ['\x00'] [], .create ['\x00'] []]
  let db : Database :=
    { tableNames := [['\x00'], ['\x00']], indexes := [{}, {}]
      tables := [Table.inDir ['\x00'] [], Table.inDir ['\x00'] []] }
  have hexec : exec callStep ({}, {}) calls = some ([true, true], (db, {})) := by rfl
  have hnodup := h db {} ((run_of_exec hexec).reaches fun _ _ _ => trivial)
  exact absurd hnodup (by decide)

end Database

end MiniDB.Storage
