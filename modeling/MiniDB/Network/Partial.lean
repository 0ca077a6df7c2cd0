import MiniDB.Network.Request

/-!
# Network/Partial — a request that arrives cut

The buffer of `send_sql`, or a connection that drops, cuts a request line short, so what the server
decodes is some prefix of it.  A prefix that is longer than the template has the type and the start
of the SQL text; the text is taken only when the quote behind it is there.  A shorter prefix, looked
at one length after the other, has no SQL text at all.

**`partial_request`**: no prefix is taken for a shorter statement, and none for an exit request.
-/

namespace MiniDB.Network

open MiniDB.Core

/-- A value without its closing quote is not found. -/
theorem jsonGetString_open {json key pattern value : Text} (h0 : '\x00' ∉ json)
    (hpattern : snprintf 256 ('"' :: cString key ++ "\":\"".toList) = pattern)
    (hfind : strstr json pattern = some (pattern ++ value)) (hvalue : '"' ∉ value) :
    jsonGetString json key = [] := by
  rw [jsonGetString, cString_of_notMem h0]
  simp only [hpattern, hfind, List.drop_left, strchr_eq_none hvalue]

/-- What a cut request is a prefix of. -/
theorem requestLine_isPrefix (sql : Text) :
    requestLine sql <+: template ++ (cString sql ++ "\"\x7d".toList) := by
  rw [← List.append_assoc]
  exact List.take_prefix _ _

/-- A request cut inside the template. -/
theorem template_take : ∀ k ∈ List.range (template.length + 1),
    (parseRequestSql (template.take k) == [] && !isExitRequest (template.take k)) = true :=
  List.all_eq_true.mp (by decide +kernel)

/-- The SQL text starts behind the template. -/
theorem strstr_sql (q : Text) :
    strstr (template ++ q) "\"sql\":\"".toList = some ("\"sql\":\"".toList ++ q) := rfl

section Behind

variable {q : Text} (h0 : '\x00' ∉ template ++ q)

include h0

theorem type_behind : jsonGetString (template ++ q) "type".toList = "sql".toList := by
  have hfind : strstr (template ++ q) "\"type\":\"".toList = some ("\"type\":\"".toList ++
      ("sql".toList ++ '"' :: (",\"sql\":\"".toList ++ q))) := rfl
  exact jsonGetString_eq h0 (by decide) hfind (by decide)

theorem parse_behind :
    parseRequestSql (template ++ q) = jsonGetString (template ++ q) "sql".toList := by
  rw [parseRequestSql, type_behind h0, if_neg (by decide)]

/-- Cut inside the SQL text. -/
theorem parse_open (hq : '"' ∉ q) : parseRequestSql (template ++ q) = [] := by
  rw [parse_behind h0]
  exact jsonGetString_open h0 (by decide) (strstr_sql q) hq

end Behind

/-- **A cut request is no shorter statement, and no exit request.**  What follows a newline of the
text is outside it: that reaches the server as a second line, which is no prefix of the request. -/
theorem partial_request {sql p : Text} (hp : p <+: requestLine sql) :
    ('"' ∉ cString sql → parseRequestSql p = [] ∨ parseRequestSql p = cString sql) ∧
      isExitRequest p = false := by
  have hfull := hp.trans (requestLine_isPrefix sql)
  rcases List.prefix_or_prefix_of_prefix hfull (List.prefix_append _ _) with hshort | ⟨q, rfl⟩
  · have htake := template_take p.length
      (List.mem_range.mpr (Nat.lt_succ_of_le hshort.length_le))
    rw [← List.prefix_iff_eq_take.mp hshort] at htake
    simp only [Bool.and_eq_true, beq_iff_eq, Bool.not_eq_true'] at htake
    exact ⟨fun _ => Or.inl htake.1, htake.2⟩
  · have h0 : '\x00' ∉ template ++ q := fun h => by
      have hmem := hfull.subset h
      simp only [List.mem_append] at hmem
      rcases hmem with hmem | hmem | hmem
      · revert hmem
        decide
      · exact notMem_cString sql hmem
      · revert hmem
        decide
    have hq : q <+: cString sql ++ "\"\x7d".toList := (List.prefix_append_right_inj _).mp hfull
    refine ⟨fun hquote => ?_, by rw [isExitRequest, type_behind h0]; decide⟩
    rcases List.prefix_or_prefix_of_prefix hq (List.prefix_append _ _) with hin | ⟨r, rfl⟩
    · exact Or.inl (parse_open h0 fun hc => hquote (hin.subset hc))
    · have hr : r <+: "\"\x7d".toList := (List.prefix_append_right_inj _).mp hq
      cases r with
      | nil =>
        rw [List.append_nil] at h0 ⊢
        exact Or.inl (parse_open h0 hquote)
      | cons c r =>
        obtain rfl : c = '"' := (List.cons_prefix_cons.mp hr).1
        rw [parse_behind h0]
        exact Or.inr (jsonGetString_eq h0 (by decide) (strstr_sql _) hquote)

/-- `use d`, cut behind its last letter. -/
theorem partial_request_use : '"' ∉ cString "use d".toList ∧
    (parseRequestSql (template ++ "use d".toList) = [] ∨
      parseRequestSql (template ++ "use d".toList) = cString "use d".toList) :=
  ⟨by decide, (partial_request (by decide)).1 (by decide)⟩

end MiniDB.Network
