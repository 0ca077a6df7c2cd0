import MiniDB.Network.Answers

/-!
# Network/Printed — what the client prints of an answer

The client looks for `":"`, and prints the key in front of it and the value behind it.  An answer
with a table has such members for its message and for each column; the key of the first column is
`:[name`, for its opening quote is lost.  In the rows there are none, the cells being ints and empty
texts.

**`displayResponse_answer`**: the client prints the message and the columns of an answer, and no
row, whether the answer is cut behind its columns or not.
-/

namespace MiniDB.Network

open MiniDB.Core MiniDB.Parser MiniDB.Storage MiniDB.Execution

/-! ## Searching -/

section Search

variable {s w needle : Text} {c : Char}

theorem strstr_eq_none_iff : strstr s needle = none ↔ ¬ needle <:+: s := by
  induction s with
  | nil => simp [strstr]
  | cons c s ih =>
    rw [strstr, List.infix_cons_iff]
    split
    · next h => simp [List.isPrefixOf_iff_prefix.mp h]
    · next h =>
      rw [ih, not_or]
      exact (and_iff_right fun hpre => h (List.isPrefixOf_iff_prefix.mpr hpre)).symm

/-- A needle that starts with a quote is not found in front of the first quote. -/
theorem strstr_append_of_notMem (hw : c ∉ w) (s needle : Text) :
    strstr (w ++ s) (c :: needle) = strstr s (c :: needle) := by
  induction w with
  | nil => rfl
  | cons x w ih =>
    obtain ⟨hx, hw⟩ := not_or.mp (mt List.mem_cons.mpr hw)
    rw [List.cons_append, strstr, if_neg, ih hw]
    simp [List.isPrefixOf, hx]

theorem strstr_of_notMem (hc : c ∈ needle) (hs : c ∉ s) : strstr s needle = none :=
  strstr_eq_none_iff.mpr fun h => hs (h.subset hc)

/-- What is not found in a text is not found in a part of it. -/
theorem strstr_none_of_isPrefix (hw : w <+: s) (h : strstr s needle = none) :
    strstr w needle = none :=
  strstr_eq_none_iff.mpr fun hin => strstr_eq_none_iff.mp h (hin.trans hw.isInfix)

end Search

/-- What stands between two quotes is not the start of the needle, when it differs or goes on in
another way. -/
theorem strstr_quoted {k n v tail : Text} (hk : '"' ∉ k) (hv : '"' ∉ v)
    (h : ¬ (v = k ∧ n <+: tail)) :
    strstr ('"' :: (v ++ '"' :: tail)) ('"' :: (k ++ '"' :: n))
      = strstr ('"' :: tail) ('"' :: (k ++ '"' :: n)) := by
  rw [strstr, if_neg, strstr_append_of_notMem hv]
  intro hpre
  obtain ⟨t, ht⟩ := (List.cons_prefix_cons.mp (List.isPrefixOf_iff_prefix.mp hpre)).2
  rw [List.append_assoc, List.cons_append] at ht
  have hchr := congrArg (strchr · '"') ht
  simp only [strchr_append hk, strchr_append hv] at hchr
  obtain ⟨-, rfl⟩ := List.cons.inj (Option.some.inj hchr)
  exact h ⟨(List.append_cancel_right ht).symm, List.prefix_append _ _⟩

/-! ## One member -/

section Member

variable {front key back rest val gap left json : Text} {stop : Char} {fuel : Nat}

/-- A key without quotes and commas, and no brace in front. -/
def IsKey (key : Text) : Prop := '"' ∉ key ∧ ',' ∉ key ∧ key.head? ≠ some '\x7b'

instance (key : Text) : Decidable (IsKey key) := inferInstanceAs (Decidable (_ ∧ _))

theorem byteAt_append (front back : Text) (c : Char) :
    byteAt (front ++ c :: back) front.length = .ok c := by
  rw [byteAt, if_neg (by simp)]
  simp

/-- The walk back ends behind the last quote or comma. -/
theorem keyStart_append (hstop : stop = '"' ∨ stop = ',') (front : Text)
    (hquote : '"' ∉ key) (hcomma : ',' ∉ key) (back : Text) :
    keyStart (front ++ stop :: (key ++ back)) (front.length + 1 + key.length)
      = .ok (front.length + 1) := by
  induction key using List.reverseRecOn generalizing back with
  | nil =>
    rw [List.length_nil, Nat.add_zero, keyStart, byteAt_append, ok_bind]
    rcases hstop with rfl | rfl <;> rfl
  | append_singleton key c ih =>
    rw [List.mem_append, List.mem_singleton, not_or] at hquote hcomma
    have hsplit : front ++ stop :: (key ++ [c] ++ back) = (front ++ stop :: key) ++ c :: back := by
      simp
    have hlen : front.length + 1 + key.length = (front ++ stop :: key).length := by
      simp only [List.length_append, List.length_cons]
      omega
    rw [List.length_append, List.length_singleton, ← Nat.add_assoc, keyStart, hsplit, hlen,
      byteAt_append, ok_bind, if_pos (by simp [Ne.symm hquote.2, Ne.symm hcomma.2]), ← hlen,
      ← hsplit, List.append_assoc]
    exact ih hquote.1 hcomma.1 _

/-- The key is what stands behind the last quote or comma. -/
theorem keyBefore_append (hstop : stop = '"' ∨ stop = ',') (front : Text) (hkey : IsKey key)
    (back : Text) : keyBefore (front ++ stop :: (key ++ '"' :: back)) (front.length + 1 + key.length)
      = .ok key := by
  obtain ⟨hquote, hcomma, hhead⟩ := hkey
  obtain ⟨c, tail, hfirst, hc⟩ : ∃ c tail, key ++ '"' :: back = c :: tail ∧
      (c == ',' || c == '\x7b') = false := by
    cases key with
    | nil => exact ⟨'"', back, rfl, rfl⟩
    | cons c key =>
      have hc : c ≠ ',' := fun h => hcomma (h ▸ List.mem_cons_self)
      exact ⟨c, _, rfl, by simp [hc, show c ≠ '\x7b' by simpa using hhead]⟩
  have hsplit : front ++ stop :: (key ++ '"' :: back) = (front ++ [stop]) ++ c :: tail := by
    rw [hfirst]
    simp
  have hbyte : byteAt (front ++ stop :: (key ++ '"' :: back)) (front.length + 1) = .ok c := by
    rw [hsplit, ← List.length_singleton (a := stop), ← List.length_append, byteAt_append]
  have hdrop : (front ++ stop :: (key ++ '"' :: back)).drop (front.length + 1)
      = key ++ '"' :: back := by
    rw [← List.drop_drop, List.drop_left]
    rfl
  rw [keyBefore, keyStart_append hstop front hquote hcomma, ok_bind, hbyte, ok_bind, hc]
  exact cut_append hdrop

/-- A member that is printed. -/
def memberLine (key val : Text) : Text := "  ".toList ++ key ++ ": ".toList ++ val

/-- What a member prints; the status and the kind have been printed before. -/
def memberLines (key val : Text) : List Text :=
  if key != "status".toList && key != "kind".toList then [memberLine key val] else []

/-- **One round of the loop**: behind a gap without `":"`, the key and the value of a member. -/
theorem displayMembers_member (hstop : stop = '"' ∨ stop = ',')
    (hkey : IsKey key) (hval : '"' ∉ val)
    (hfind : strstr (gap ++ stop :: (key ++ ("\":\"".toList ++ (val ++ '"' :: rest))))
      "\":\"".toList = some ("\":\"".toList ++ (val ++ '"' :: rest)))
    (hjson : json = left ++ (gap ++ stop :: (key ++ ("\":\"".toList ++ (val ++ '"' :: rest)))))
    {lines : List Text} (pos : Nat) (hpos : json.length = pos + rest.length)
    (hrest : displayMembers json fuel pos = .ok lines) :
    displayMembers json (fuel + 1) left.length
      = .ok (memberLines key val ++ lines) := by
  have hdrop : json.drop left.length
      = gap ++ stop :: (key ++ ("\":\"".toList ++ (val ++ '"' :: rest))) := by
    rw [hjson, List.drop_left]
  have hle : left.length ≤ json.length := by
    rw [hjson, List.length_append]
    omega
  obtain ⟨p, hstr, hp, -, hlen⟩ := strstrAt_some hle (hdrop ▸ hfind)
  have hvalue : json.drop (p + 3) = val ++ '"' :: rest := by
    rw [← List.drop_drop, hp]
    rfl
  have hmark : ("\":\"".toList ++ (val ++ '"' :: rest)).length
      = 3 + val.length + 1 + rest.length := by
    simp only [List.length_append, List.length_cons]
    change 3 + _ = _
    omega
  have hkeyAt : keyBefore json p = .ok key := by
    have hfront : p = (left ++ gap).length + 1 + key.length := by
      have hwhole := congrArg List.length hjson
      simp only [List.length_append, List.length_cons] at hwhole hlen ⊢
      omega
    have hback : json = (left ++ gap) ++ stop :: (key ++ '"' :: (":\"".toList ++
        (val ++ '"' :: rest))) := by
      rw [hjson, List.append_assoc]
      rfl
    rw [hfront, hback]
    exact keyBefore_append hstop _ hkey _
  have hnext : p + 3 + val.length + 1 = pos := by omega
  rw [displayMembers, hstr, memberLines]
  simp only [ok_bind, hkeyAt, strchrAt_append hvalue (by omega) hval, cut_append hvalue, hnext,
    hrest]
  split
  · rfl
  · rfl

/-- A text behind a quote, and what is printed of it. -/
inductive Prints : Text → List Text → Prop
  | done {s : Text} (h : strstr s "\":\"".toList = none) : Prints s []
  | member (gap key val : Text) {rest : Text} {stop : Char} {lines : List Text}
    (hstop : stop = '"' ∨ stop = ',') (hkey : IsKey key) (hval : '"' ∉ val)
    (hfind : strstr (gap ++ stop :: (key ++ ("\":\"".toList ++ (val ++ '"' :: rest))))
      "\":\"".toList = some ("\":\"".toList ++ (val ++ '"' :: rest)))
    (hrest : Prints rest lines) :
    Prints (gap ++ stop :: (key ++ ("\":\"".toList ++ (val ++ '"' :: rest))))
      (memberLines key val ++ lines)

/-- **The loop prints** what a text has to print, wherever it stands. -/
theorem Prints.displayMembers_eq {s : Text} {lines : List Text} (h : Prints s lines) (left : Text)
    (hfuel : s.length < fuel) : displayMembers (left ++ s) fuel left.length = .ok lines := by
  induction h generalizing left fuel with
  | @done s h =>
    obtain ⟨fuel, rfl⟩ : ∃ n, fuel = n + 1 := ⟨fuel - 1, by omega⟩
    rw [displayMembers, strstrAt_none (by simp) (by rwa [List.drop_left])]
    rfl
  | @member gap key val rest stop lines hstop hkey hval hfind _ ih =>
    obtain ⟨fuel, rfl⟩ : ∃ n, fuel = n + 1 := ⟨fuel - 1, by omega⟩
    have hsplit : left ++ (gap ++ stop :: (key ++ ("\":\"".toList ++ (val ++ '"' :: rest))))
        = (left ++ (gap ++ stop :: (key ++ ("\":\"".toList ++ (val ++ ['"']))))) ++ rest := by
      simp
    refine displayMembers_member hstop hkey hval hfind rfl
      (left ++ (gap ++ stop :: (key ++ ("\":\"".toList ++ (val ++ ['"']))))).length ?_ ?_
    · rw [hsplit, List.length_append]
    · rw [hsplit]
      refine ih _ ?_
      simp only [List.length_append, List.length_cons] at hfuel
      omega

/-- A key that comes next. -/
theorem strstr_key (hstop : stop = '"' ∨ stop = ',') (hkey : '"' ∉ key) (hne : key ≠ [':'])
    (tail : Text) : strstr (stop :: (key ++ ("\":\"".toList ++ tail))) "\":\"".toList
      = some ("\":\"".toList ++ tail) := by
  have hmark : strstr ("\":\"".toList ++ tail) "\":\"".toList = some ("\":\"".toList ++ tail) := rfl
  rcases hstop with rfl | rfl
  · rw [← hmark]
    exact strstr_quoted (k := [':']) (n := []) (by decide) hkey fun h => hne h.1
  · have hword : '"' ∉ ',' :: key := by simpa using hkey
    exact (strstr_append_of_notMem hword _ _).trans hmark

end Member

/-! ## The text of an answer with a table -/

/-- The fragments between the message and the columns. -/
def countsText (t : Table) : Text :=
  ',' :: '"' :: ("column_count".toList ++ '"' :: ':' :: (intText t.columns.length ++
    ',' :: '"' :: ("row_count".toList ++ '"' :: ':' :: (intText t.rows.length ++
      ',' :: '"' :: ("columns".toList ++ '"' :: ':' :: ['['])))))

/-- The columns behind the first one. -/
def moreColumns (cols : List Column) : Text := cols.flatMap fun col => ',' :: serializeColumn col

/-- What is behind the columns. -/
def rowsText (t : Table) : Text :=
  ']' :: ',' :: '"' :: ("rows".toList ++ '"' :: ':' :: '[' ::
    ([','].intercalate (t.rows.map serializeRow) ++ [']', '\x7d']))

section Texts

variable {out key w : Text} {col : Column} {cols : List Column} {t : Table} {r : ExecResult}

theorem intercalate_columns (col : Column) (cols : List Column) :
    [','].intercalate ((col :: cols).map serializeColumn)
      = serializeColumn col ++ moreColumns cols := by
  induction cols generalizing col with
  | nil => simp [moreColumns, List.intercalate]
  | cons col' cols ih =>
    rw [List.map_cons, List.map_cons, List.intercalate_cons_cons, ← List.map_cons, ih]
    simp [moreColumns]

/-- A count, behind a comma or in front of one. -/
theorem jsonAppendKvInt_eq (key : Text) (hkey : '\x00' ∉ key)
    (hout : appendCommaIfNeeded out = w ++ [',']) (n : Int) :
    jsonAppendKvInt out key n = w ++ ',' :: '"' :: (key ++ '"' :: ':' :: intText n) := by
  rw [jsonAppendKvInt, hout, cString_of_notMem hkey]
  simp only [List.append_assoc, List.cons_append, List.nil_append]
  rfl

/-- A count asks for a comma behind it. -/
theorem appendCommaIfNeeded_count (p key : Text) (n : Int) :
    appendCommaIfNeeded (p ++ ',' :: '"' :: (key ++ '"' :: ':' :: intText n))
      = p ++ ',' :: '"' :: (key ++ '"' :: ':' :: intText n) ++ [','] := by
  have hsplit : p ++ ',' :: '"' :: (key ++ '"' :: ':' :: intText n)
      = (p ++ ',' :: '"' :: (key ++ ['"', ':'])) ++ intText n := by
    simp
  rw [hsplit]
  exact appendCommaIfNeeded_append (intText_ne_nil n) fun _ => intText_ne_bracket

/-- The fragments of a table with columns, and the brace behind them. -/
theorem appendTable_text (out : Text) (hcols : t.columns = col :: cols) :
    appendTable out t ++ ['\x7d']
      = out ++ (countsText t ++ (serializeColumn col ++ (moreColumns cols ++ rowsText t))) := by
  have hsame : appendCommaIfNeeded (out ++ [',']) = out ++ [','] := by
    simp [appendCommaIfNeeded]
  have hfirst := jsonAppendKvInt_eq "column_count".toList (by decide) hsame
    t.columns.length
  have hsecond := jsonAppendKvInt_eq "row_count".toList (by decide)
    (appendCommaIfNeeded_count out "column_count".toList t.columns.length) t.rows.length
  rw [appendTable, hfirst, hsecond, hcols, intercalate_columns, countsText, rowsText, hcols]
  simp only [List.append_assoc, List.cons_append, List.nil_append]
  rfl

/-- A column: a name whose opening quote is lost, and a type. -/
theorem serializeColumn_text (h : '\x00' ∉ col.name) :
    serializeColumn col = "name".toList ++ ("\":\"".toList ++ (col.name ++ '"' :: '"' ::
      ("type".toList ++ ("\":\"".toList ++ (typeText col.type ++ ['"']))))) := by
  have htype : cString (typeText col.type) = typeText col.type := by
    cases col.type <;> rfl
  rw [serializeColumn, jsonAppendKv, jsonAppendKv, cString_of_notMem h, htype]
  simp only [appendCommaIfNeeded, List.getLast?_nil, List.nil_append, List.append_assoc,
    List.cons_append, List.drop_succ_cons, List.drop_zero]
  rfl

end Texts

/-! ## What is printed of the columns -/

/-- A column, whose name has been given this key. -/
def columnLines (key : Text) (col : Column) : List Text :=
  [memberLine key col.name, memberLine "type".toList (typeText col.type)]

section Columns

variable {col : Column} {cols : List Column} {tail : Text} {lines : List Text}

theorem notMem_typeText (type : ColumnType) : '"' ∉ typeText type := by
  cases type <;> decide

/-- The type of a column, behind its name. -/
theorem prints_type (col : Column) (h : Prints tail lines) :
    Prints ('"' :: ("type".toList ++ ("\":\"".toList ++ (typeText col.type ++ '"' :: tail))))
      (memberLine "type".toList (typeText col.type) :: lines) :=
  .member [] _ _ (.inl rfl) (by decide) (notMem_typeText _)
    (strstr_key (.inl rfl) (by decide) (by decide) _) h

/-- **The columns behind the first one** are printed with their names. -/
theorem prints_moreColumns (hcols : ∀ col ∈ cols, col.name.all isClean = true)
    (h : Prints tail lines) :
    Prints (moreColumns cols ++ tail) (cols.flatMap (columnLines "name".toList) ++ lines) := by
  induction cols with
  | nil => exact h
  | cons col cols ih =>
    obtain ⟨hname, hcols⟩ := List.forall_mem_cons.mp hcols
    have hmore := prints_type col (ih hcols)
    have hmember := Prints.member [] "name".toList _ (.inr rfl) (by decide)
      (notMem_of_clean hname rfl) (strstr_key (.inr rfl) (by decide) (by decide) _)
      hmore
    rw [moreColumns, List.flatMap_cons, List.flatMap_cons,
      serializeColumn_text (notMem_of_clean hname rfl)]
    simp only [List.append_assoc, List.cons_append, List.nil_append]
    exact hmember

theorem notMem_count (n : Int) : '"' ∉ ':' :: (intText n ++ [',']) := by
  have hdigits : '"' ∉ intText n := fun h => by
    rcases mem_intText h with h | h <;> cases h
  simpa using hdigits

/-- No member is found in front of the columns. -/
theorem strstr_counts (m n : Int) {s rest : Text}
    (h : strstr ('"' :: s) "\":\"".toList = some rest) :
    strstr (',' :: '"' :: ("column_count".toList ++ '"' :: ':' :: (intText m ++ ',' :: '"' ::
      ("row_count".toList ++ '"' :: ':' :: (intText n ++ ',' :: '"' ::
        ("columns".toList ++ '"' :: s)))))) "\":\"".toList = some rest := by
  have hquoted (v tail : Text) (hv : '"' ∉ v) (hne : v ≠ [':']) :
      strstr ('"' :: (v ++ '"' :: tail)) "\":\"".toList = strstr ('"' :: tail) "\":\"".toList :=
    strstr_quoted (k := [':']) (n := []) (by decide) hv fun h => hne h.1
  have hcount (n : Int) (tail : Text) :
      strstr ('"' :: ':' :: (intText n ++ ',' :: '"' :: tail)) "\":\"".toList
        = strstr ('"' :: tail) "\":\"".toList := by
    have hne : ':' :: (intText n ++ [',']) ≠ [':'] := by simp
    simpa using hquoted _ tail (notMem_count n) hne
  rw [← h, ← hquoted "columns".toList s (by decide) (by decide), ← hcount n,
    ← hquoted "row_count".toList _ (by decide) (by decide), ← hcount m,
    ← hquoted "column_count".toList _ (by decide) (by decide)]
  exact strstr_append_of_notMem (w := [',']) (by decide) _ _

/-- **The columns of an answer**, behind its message. -/
theorem prints_columns {t : Table} (hcols : t.columns = col :: cols)
    (hclean : ∀ c ∈ t.columns, c.name.all isClean = true)
    (h : strstr tail "\":\"".toList = none) :
    Prints (countsText t ++ (serializeColumn col ++ (moreColumns cols ++ tail)))
      (columnLines ":[name".toList col ++ cols.flatMap (columnLines "name".toList)) := by
  rw [hcols] at hclean
  obtain ⟨hname, hclean⟩ := List.forall_mem_cons.mp hclean
  have hmore := prints_type col (prints_moreColumns hclean (.done h))
  have hmember := Prints.member (',' :: '"' :: ("column_count".toList ++ '"' :: ':' ::
      (intText t.columns.length ++ ',' :: '"' :: ("row_count".toList ++ '"' :: ':' ::
        (intText t.rows.length ++ ',' :: '"' :: "columns".toList)))))
    ":[name".toList _ (.inl rfl) (by decide) (notMem_of_clean hname rfl) ?_ hmore
  · rw [serializeColumn_text (notMem_of_clean hname rfl), countsText]
    simp only [List.append_assoc, List.cons_append, List.nil_append, List.append_nil] at hmember ⊢
    exact hmember
  · simp only [List.append_assoc, List.cons_append]
    exact strstr_counts _ _ (strstr_key (.inl rfl) (by decide) (by decide) _)

end Columns

/-! ## No kind -/

section Kind

variable {v s : Text} {col : Column} {cols : List Column} {t : Table}

/-- What stands between two quotes is not the key `kind` with a value. -/
theorem strstr_kind_skip (hv : '"' ∉ v) (h : v ≠ "kind".toList ∨ ¬ ":\"".toList <+: s) :
    strstr ('"' :: (v ++ '"' :: s)) "\"kind\":\"".toList
      = strstr ('"' :: s) "\"kind\":\"".toList :=
  strstr_quoted (k := "kind".toList) (n := ":\"".toList) (by decide) hv fun hkind =>
    h.elim (· hkind.1) (· hkind.2)

theorem strstr_kind_column (hclean : col.name.all isClean = true) (hv : '"' ∉ v)
    (hne : v ++ "name".toList ≠ "kind".toList) (tail : Text) :
    strstr ('"' :: (v ++ (serializeColumn col ++ tail))) "\"kind\":\"".toList
      = strstr ('"' :: tail) "\"kind\":\"".toList := by
  have hname := strstr_kind_skip (s := ':' :: '"' :: (col.name ++ '"' :: '"' ::
    ("type".toList ++ '"' :: ':' :: '"' :: (typeText col.type ++ '"' :: tail))))
    (List.not_mem_append hv (by decide)) (.inl hne)
  rw [serializeColumn_text (notMem_of_clean hclean rfl)]
  simp only [List.append_assoc, List.cons_append, List.nil_append] at hname ⊢
  refine hname.trans ?_
  refine (strstr_kind_skip (v := [':']) (by decide) (.inl (by decide))).trans ?_
  refine (strstr_kind_skip (notMem_of_clean hclean rfl) (.inr ?_)).trans ?_
  · exact fun h => absurd (List.cons_prefix_cons.mp h).1 (by decide)
  refine (strstr_kind_skip (v := []) (by decide) (.inl (by decide))).trans ?_
  refine (strstr_kind_skip (v := "type".toList) (by decide) (.inl (by decide))).trans ?_
  refine (strstr_kind_skip (v := [':']) (by decide) (.inl (by decide))).trans ?_
  refine strstr_kind_skip (notMem_typeText _) (.inl ?_)
  cases col.type <;> decide

theorem strstr_kind_moreColumns (hclean : ∀ col ∈ cols, col.name.all isClean = true)
    (tail : Text) : strstr ('"' :: (moreColumns cols ++ tail)) "\"kind\":\"".toList
      = strstr ('"' :: tail) "\"kind\":\"".toList := by
  induction cols with
  | nil => rfl
  | cons col cols ih =>
    obtain ⟨hname, hclean⟩ := List.forall_mem_cons.mp hclean
    have hcol := strstr_kind_column hname (v := [',']) (by decide) (by decide)
      (moreColumns cols ++ tail)
    rw [← ih hclean, ← hcol, moreColumns, List.flatMap_cons]
    simp [moreColumns]

theorem strstr_kind_columns (hcols : t.columns = col :: cols)
    (hclean : ∀ c ∈ t.columns, c.name.all isClean = true) (tail : Text) :
    strstr ('"' :: (countsText t ++ (serializeColumn col ++ (moreColumns cols ++ tail))))
      "\"kind\":\"".toList = strstr ('"' :: tail) "\"kind\":\"".toList := by
  rw [hcols] at hclean
  obtain ⟨hname, hclean⟩ := List.forall_mem_cons.mp hclean
  have hcount (n : Int) (s : Text) :
      strstr ('"' :: ':' :: (intText n ++ ',' :: '"' :: s)) "\"kind\":\"".toList
        = strstr ('"' :: s) "\"kind\":\"".toList := by
    have hne : ':' :: (intText n ++ [',']) ≠ "kind".toList := fun h => by
      have hhead := (List.cons.inj h).1
      revert hhead
      decide
    simpa using strstr_kind_skip (s := s) (notMem_count n) (.inl hne)
  have hskip (v s : Text) (hv : '"' ∉ v) (hne : v ≠ "kind".toList) :=
    strstr_kind_skip (s := s) hv (.inl hne)
  rw [countsText]
  simp only [List.append_assoc, List.cons_append, List.nil_append]
  refine (hskip [','] _ (by decide) (by decide)).trans ?_
  rw [hskip "column_count".toList _ (by decide) (by decide), hcount,
    hskip "row_count".toList _ (by decide) (by decide), hcount,
    hskip "columns".toList _ (by decide) (by decide)]
  exact (strstr_kind_column hname (v := [':', '[']) (by decide) (by decide) _).trans
    (strstr_kind_moreColumns hclean tail)

end Kind

/-! ## The rows -/

section Rows

variable {t : Table} {row : Row}

theorem notMem_intercalate {c : Char} (hc : c ≠ ',') {xs : List Text} (h : ∀ x ∈ xs, c ∉ x) :
    c ∉ [','].intercalate xs := by
  induction xs with
  | nil => simp [List.intercalate]
  | cons x xs ih =>
    obtain ⟨hx, hxs⟩ := List.forall_mem_cons.mp h
    cases xs with
    | nil => simpa [List.intercalate] using hx
    | cons y ys => simp [List.intercalate_cons_cons, hx, hc, ih hxs]

theorem notMem_serializeRow (h : ∀ v ∈ row, BareCell v) : ':' ∉ serializeRow row := by
  have hcells : ':' ∉ [','].intercalate (row.map serializeCell) := by
    refine notMem_intercalate (by decide) fun x hx => ?_
    obtain ⟨v, hv, rfl⟩ := List.mem_map.mp hx
    cases v with
    | none => decide
    | int n => exact fun hmem => by rcases mem_intText hmem with h | h <;> cases h
    | string s =>
      rw [show s = [] from h _ hv]
      decide
  simp [serializeRow, hcells]

/-- **The rows hold no member**, and no kind. -/
theorem strstr_rows (h : ∀ row ∈ t.rows, ∀ v ∈ row, BareCell v) {tail : Text}
    (htail : tail <+: rowsText t) :
    strstr tail "\":\"".toList = none ∧ strstr ('"' :: tail) "\"kind\":\"".toList = none := by
  have hbody : ':' ∉ [','].intercalate (t.rows.map serializeRow) ++ [']', '\x7d'] := by
    refine List.not_mem_append (notMem_intercalate (by decide) fun x hx => ?_) (by decide)
    obtain ⟨row, hrow, rfl⟩ := List.mem_map.mp hx
    exact notMem_serializeRow (h row hrow)
  have hmark : strstr (rowsText t) "\":\"".toList
      = strstr ([','].intercalate (t.rows.map serializeRow) ++ [']', '\x7d']) "\":\"".toList := rfl
  have hkind : strstr ('"' :: rowsText t) "\"kind\":\"".toList
      = strstr ([','].intercalate (t.rows.map serializeRow) ++ [']', '\x7d'])
          "\"kind\":\"".toList := rfl
  refine ⟨strstr_none_of_isPrefix htail ?_,
    strstr_none_of_isPrefix (List.cons_prefix_cons.mpr ⟨rfl, htail⟩) ?_⟩
  · rw [hmark, strstr_of_notMem (by decide) hbody]
  · rw [hkind, strstr_of_notMem (by decide) hbody]

end Rows

/-! ## The whole answer -/

/-- The lines of the columns: the first name has lost its opening quote. -/
def tableLines (t : Table) : List Text :=
  match t.columns with
  | [] => []
  | col :: cols => columnLines ":[name".toList col ++ cols.flatMap (columnLines "name".toList)

/-- What the client prints of an answer. -/
def printedLines (r : ExecResult) : List Text :=
  match r.status with
  | .error => ["ERROR: ".toList ++ r.message]
  | .ok => "OK".toList :: memberLine "message".toList r.message ::
      (r.resultTable.elim [] tableLines)

/-- An answer up to its rows. -/
def headText (r : ExecResult) : Text :=
  match r.resultTable with
  | none => serializeExecResult r
  | some t =>
    match t.columns with
    | [] => serializeExecResult r
    | col :: cols => opening "ok".toList (r.message ++ '"' :: (countsText t ++
        (serializeColumn col ++ moreColumns cols)))

section Answer

variable {m rest : Text} {lines : List Text} {r : ExecResult} {n : Nat}

/-- An answer that is no error. -/
theorem displayResponse_ok (hm : m.all isClean = true)
    (hnul : '\x00' ∉ opening "ok".toList (m ++ '"' :: rest))
    (hcolon : ¬ ":\"".toList <+: rest)
    (hkind : strstr ('"' :: rest) "\"kind\":\"".toList = none) (h : Prints rest lines) :
    displayResponse (opening "ok".toList (m ++ '"' :: rest))
      = .ok ("OK".toList :: memberLine "message".toList m :: lines) := by
  have hstatus : Closes (opening "ok".toList (m ++ '"' :: rest)) "\"status\":\"".toList
      "ok".toList (",\"message\":\"".toList ++ (m ++ '"' :: rest)) := ⟨rfl, by decide⟩
  have hnokind : strstr (opening "ok".toList (m ++ '"' :: rest)) "\"kind\":\"".toList = none :=
    (strstr_kind_skip (notMem_of_clean hm rfl) (.inr hcolon)).trans hkind
  have hprints : Prints (opening "ok".toList (m ++ '"' :: rest))
      (memberLine "message".toList m :: lines) := by
    refine .member ['\x7b'] "status".toList "ok".toList (.inl rfl) (by decide)
      (by decide) rfl ?_
    exact .member [','] "message".toList m (.inl rfl) (by decide) (notMem_of_clean hm rfl) rfl h
  have hloop := hprints.displayMembers_eq [] (Nat.lt_succ_self _)
  have hnone : valueBehind (opening "ok".toList (m ++ '"' :: rest)) "\"kind\":\"".toList
      = .ok none := valueBehind_none fun value rest hcloses => by
    rw [Closes, hnokind] at hcloses
    cases hcloses.1
  rw [displayResponse, cString_of_notMem hnul]
  have hne : ("ok".toList == "error".toList) = false := by decide
  simp only [valueBehind_closes hstatus, ok_bind, hnone, hne]
  exact congrArg (· >>= fun lines => .ok ("OK".toList :: lines)) hloop

/-- An error. -/
theorem displayResponse_error_answer (hm : m.all isClean = true) :
    displayResponse (opening "error".toList (m ++ ['"', '\x7d']))
      = .ok ["ERROR: ".toList ++ m] := by
  have hnul : '\x00' ∉ opening "error".toList (m ++ ['"', '\x7d']) := by
    simp [opening, notMem_of_clean hm (c := '\x00') rfl]
  have hstatus : Closes (opening "error".toList (m ++ ['"', '\x7d'])) "\"status\":\"".toList
      "error".toList (",\"message\":\"".toList ++ (m ++ ['"', '\x7d'])) := ⟨rfl, by decide⟩
  have hmessage : Closes (opening "error".toList (m ++ ['"', '\x7d'])) "\"message\":\"".toList
      m ['\x7d'] := ⟨rfl, notMem_of_clean hm rfl⟩
  rw [displayResponse, cString_of_notMem hnul]
  simp only [valueBehind_closes hstatus, valueBehind_closes hmessage, ok_bind, beq_self_eq_true,
    if_true]
  rfl

/-- The text of an answer with columns. -/
theorem serializeExecResult_of_columns {t : Table} {col : Column} {cols : List Column}
    (hok : r.status = .ok) (hmessage : '\x00' ∉ r.message) (ht : r.resultTable = some t)
    (hcols : t.columns = col :: cols) : serializeExecResult r = opening "ok".toList
      (r.message ++ '"' :: (countsText t ++ (serializeColumn col ++ (moreColumns cols ++
        rowsText t)))) := by
  have htext := appendTable_text (opening "ok".toList (r.message ++ ['"'])) hcols
  have hnone : t.columns.isEmpty = false := by rw [hcols]; rfl
  rw [opening_append, List.append_assoc] at htext
  rw [serializeExecResult]
  simp only [hok, ht, jsonAppendKv_opening (show '\x00' ∉ "ok".toList by decide),
    cString_of_notMem hmessage, hnone]
  exact htext

/-- An answer with columns that is cut behind them. -/
theorem displayResponse_columns {t : Table} {col : Column} {cols : List Column} {tail : Text}
    (h : CleanAnswer r) (hok : r.status = .ok) (ht : r.resultTable = some t)
    (hcols : t.columns = col :: cols) (hbare : ∀ row ∈ t.rows, ∀ v ∈ row, BareCell v)
    (htail : tail <+: rowsText t) :
    displayResponse (opening "ok".toList (r.message ++ '"' :: (countsText t ++
        (serializeColumn col ++ (moreColumns cols ++ tail)))))
      = .ok ("OK".toList :: memberLine "message".toList r.message :: tableLines t) := by
  obtain ⟨hmark, hkind⟩ := strstr_rows hbare htail
  have hclean := h.columns t ht
  rw [tableLines, hcols]
  refine displayResponse_ok h.message (fun hmem => (isLine_answer h).2.2 ?_) ?_ ?_
    (prints_columns hcols hclean hmark)
  · obtain ⟨more, hmore⟩ := htail
    rw [serializeExecResult_of_columns hok (notMem_of_clean h.message rfl) ht hcols, ← hmore]
    simpa [opening_append] using List.mem_append_left more hmem
  · rw [countsText]
    exact fun hpre => absurd (List.cons_prefix_cons.mp hpre).1 (by decide)
  · rw [strstr_kind_columns hcols hclean, hkind]

/-- **An answer that is cut behind its columns** is printed as the whole answer is. -/
theorem displayResponse_take (h : CleanAnswer r) (hanswer : r.TableIsAnswer)
    (hbare : ∀ t, r.resultTable = some t → ∀ row ∈ t.rows, ∀ v ∈ row, BareCell v)
    (hn : (headText r).length ≤ n) :
    displayResponse ((serializeExecResult r).take n) = .ok (printedLines r) := by
  have hmessage := notMem_of_clean h.message (c := '\x00') rfl
  by_cases hempty : ∀ t, r.resultTable = some t → t.columns = []
  · have hhead : headText r = serializeExecResult r := by
      rw [headText]
      split
      · rfl
      · next t ht => simp only [hempty t ht]
    have htable : r.resultTable.elim [] tableLines = [] := by
      cases ht : r.resultTable with
      | none => rfl
      | some t => rw [Option.elim_some, tableLines, hempty t ht]
    rw [List.take_of_length_le (hhead ▸ hn), serializeExecResult_of_isEmpty hempty,
      cString_of_notMem hmessage, printedLines]
    cases r.status with
    | error => exact displayResponse_error_answer h.message
    | ok =>
      rw [htable]
      refine displayResponse_ok h.message ?_ (by decide) rfl (.done rfl)
      simpa [opening] using hmessage
  · push Not at hempty
    obtain ⟨t, ht, hcols⟩ := hempty
    obtain ⟨col, cols, hcols⟩ := List.exists_cons_of_ne_nil hcols
    have hok := (hanswer t ht).1
    have hhead : headText r = opening "ok".toList (r.message ++ '"' :: (countsText t ++
        (serializeColumn col ++ moreColumns cols))) := by
      rw [headText, ht]
      simp only [hcols]
    have hsplit : serializeExecResult r = headText r ++ rowsText t := by
      rw [serializeExecResult_of_columns hok hmessage ht hcols, hhead, opening_append]
      simp only [List.append_assoc, List.cons_append]
    have hcut : (serializeExecResult r).take n = opening "ok".toList (r.message ++ '"' ::
        (countsText t ++ (serializeColumn col ++ (moreColumns cols ++
          (rowsText t).take (n - (headText r).length))))) := by
      rw [hsplit, List.take_append, List.take_of_length_le hn]
      nth_rewrite 1 [hhead]
      rw [opening_append]
      simp only [List.append_assoc, List.cons_append]
    rw [hcut, displayResponse_columns h hok ht hcols (hbare t ht) (List.take_prefix _ _),
      printedLines, hok, ht]
    rfl

/-- The answer to a statement of the parser is printed so, from clean and bare cells. -/
theorem displayResponse_execute {e e' : Executor} {stmt : SQLStatement} (he : e.WellFormed)
    (hclean : ∀ s ∈ e.slots, Executor.CellsAre CleanCell s)
    (hbare : ∀ s ∈ e.slots, Executor.CellsAre BareCell s) (hs : Denoted stmt ∨ stmt.Reported)
    (hexec : e.execute stmt = some (r, e')) (hn : (headText r).length ≤ n) :
    displayResponse ((serializeExecResult r).take n) = .ok (printedLines r) := by
  refine displayResponse_take (Executor.cleanAnswer_of_execute he hclean hs hexec)
    (Executor.rooted_execute hexec).answer (fun t ht => ?_) hn
  exact Executor.cells_of_execute he hbare hs hexec ht

end Answer

/-- **The client prints the message and the columns of every answer, and no row.**  Whatever
statements without line breaks and quotes have been executed, the answer to the next statement is
printed so, whether it arrives whole or is cut anywhere behind its columns. -/
theorem displayResponse_answer {disk : Disk} {e e' : Executor} {sql : Text} {r : ExecResult}
    {n : Nat} (h : Machine.Reaches Executor.run (fun _ sql => Unbroken sql ∧ '"' ∉ sql)
      (.new "data".toList disk) e)
    (hrun : e.run sql = some (r, e')) (hn : (headText r).length ≤ n) :
    displayResponse ((serializeExecResult r).take n) = .ok (printedLines r) := by
  have he := Executor.wellFormed_of_reaches h
  obtain ⟨stmt, hparse, hexec, -⟩ := Executor.run_moves he hrun
  exact displayResponse_execute he (Executor.cells_clean (h.mono fun _ _ hok => hok.1))
    (Executor.cells_bare (h.mono fun _ _ hok => hok.2)) (parse_reported hparse) hexec hn

/-- Two rows, cut off behind the columns. -/
theorem displayResponse_answer_cut : ∃ r : ExecResult, (headText r).length = 99 ∧
    99 < (serializeExecResult r).length ∧
    displayResponse ((serializeExecResult r).take 99) = .ok (printedLines r) := by
  have hsome : ((Machine.exec Executor.run (.new "data".toList {}) ["use d".toList,
      "create table t (a int)".toList, "insert into t values (1)".toList,
      "insert into t values (2)".toList]).bind fun p =>
        (p.2.run "select a from t".toList).bind fun q =>
          if (headText q.1).length = 99 ∧ 99 < (serializeExecResult q.1).length then some q
          else none).isSome = true := by decide +kernel
  obtain ⟨⟨r, e'⟩, h⟩ := Option.isSome_iff_exists.mp hsome
  obtain ⟨⟨rs, e⟩, hexec, h⟩ := Option.bind_eq_some_iff.mp h
  obtain ⟨⟨r', e''⟩, hrun, h⟩ := Option.bind_eq_some_iff.mp h
  obtain ⟨hlen, h⟩ := Option.ite_none_right_eq_some.mp h
  cases h
  have hreach : Machine.Reaches Executor.run (fun _ sql => Unbroken sql ∧ '"' ∉ sql)
      (.new "data".toList {}) e := (Machine.run_of_exec hexec).reaches fun _ sql hsql => by
    revert sql
    unfold Unbroken
    decide
  exact ⟨r, hlen.1, hlen.2, displayResponse_answer hreach hrun hlen.1.le⟩

end MiniDB.Network
