import ContextLint.Proofs.Data.JsonReader
import ContextLint.Report.Format

/-!
# Reports from JSON

A report is read back from the JSON that it is written as: all its fields are found under their
names. The number of diagnostics and the verdict, which follow from the other fields, are left out.
A message is read with the halves of characters joined. Nothing is written if an integer has too
many digits.
-/

namespace ContextLint.Data.Json

/-- The value under a name. -/
def member? (name : String) : Json → Option Json
  | obj fields => fields.lookup name
  | _ => none

/-- The value as a text of code points. -/
def points? : Json → Option (List Nat)
  | str ps => some ps
  | _ => none

/-- The value as a text of whole characters. -/
def text? : Json → Option String
  | str ps => if ps.any Text.isSurrogate then none else some (Text.lossy ps)
  | _ => none

/-- The value as a number. -/
def int? : Json → Option Int
  | int n => some n
  | _ => none

/-- The value as a list of what its items are read as. -/
def list? {α : Type} (read : Json → Option α) : Json → Option (List α)
  | arr items => items.mapM read
  | _ => none

private theorem text?_points (s : String) : text? (str (Text.points s)) = some s := by
  have hnone : (Text.points s).any Text.isSurrogate = false := by
    simp [Text.points, (Text.toNat_bounds _).2.2]
  rw [text?, hnone, Text.lossy_points]
  rfl

private theorem list?_map {α : Type} {read : Json → Option α} {write : α → Json} {again : α → α}
    (h : ∀ a, read (write a).reread = some (again a)) (as : List α) :
    list? read (arr (as.map (reread ∘ write))) = some (as.map again) := by
  rw [list?]
  induction as with
  | nil => rfl
  | cons a as ih => simp [h, ih]

end ContextLint.Data.Json

namespace ContextLint.Report

open Data

/-- The diagnostic that a value describes. -/
def Diagnostic.ofJson? (j : Json) : Option Diagnostic := do
  return {
    file := ← (← j.member? "file").text?
    line := ← (← j.member? "line").int?
    column := ← (← j.member? "column").int?
    rule := ← (← j.member? "rule").text?
    method := ← (← j.member? "method").text?
    message := ← (← j.member? "message").points?
    snippet := ← (← j.member? "snippet").text? }

/-- The file that was not analysed that a value describes. -/
def FileIssue.ofJson? (j : Json) : Option FileIssue := do
  return { file := ← (← j.member? "file").text?, reason := ← (← j.member? "reason").text? }

/-- The report that a value describes. -/
def ofJson? (j : Json) : Option Report := do
  return {
    createdAt := ← (← j.member? "created_at").text?
    filesScanned := ← (← j.member? "files_scanned").int?
    diagnostics := ← (← j.member? "diagnostics").list? Diagnostic.ofJson?
    skipped := ← (← j.member? "skipped").list? FileIssue.ofJson?
    errors := ← (← j.member? "errors").list? FileIssue.ofJson? }

/-- The diagnostic with the halves of characters joined in its message. -/
def Diagnostic.reread (d : Diagnostic) : Diagnostic := { d with message := Text.reread d.message }

/-- The report with the halves of characters joined in its messages. -/
def reread (r : Report) : Report := { r with diagnostics := r.diagnostics.map Diagnostic.reread }

private theorem reread_points (s : String) : Text.reread (Text.points s) = Text.points s :=
  (Text.isApart_points s).reread_eq

private theorem Diagnostic.ofJson?_toJson (d : Diagnostic) :
    ofJson? d.toJson.reread = some d.reread := by
  simp [ofJson?, toJson, reread, Json.reread, Json.member?, Json.text?_points, Json.points?,
    Json.int?, List.lookup_cons, reread_points]

private theorem FileIssue.ofJson?_toJson (i : FileIssue) : ofJson? i.toJson.reread = some i := by
  simp [ofJson?, toJson, Json.reread, Json.member?, Json.text?_points, List.lookup_cons,
    reread_points]

private theorem ofJson?_toJson (r : Report) : ofJson? r.toJson.reread = some r.reread := by
  have hissues (issues : List FileIssue) :
      Json.list? FileIssue.ofJson? (.arr (issues.map (Json.reread ∘ FileIssue.toJson))) =
        some (issues.map id) :=
    Json.list?_map FileIssue.ofJson?_toJson issues
  simp [ofJson?, toJson, reread, Json.reread, Json.member?, Json.text?_points, Json.int?,
    List.lookup_cons, reread_points, Json.list?_map Diagnostic.ofJson?_toJson, hissues]

/-- A report whose messages have no halves to be joined stays as it is. -/
theorem reread_of_apart {r : Report} (h : ∀ d ∈ r.diagnostics, Text.IsApart d.message) :
    r.reread = r := by
  have hsame : r.diagnostics.map Diagnostic.reread = r.diagnostics := by
    refine (List.map_congr_left fun d hd => ?_).trans (List.map_id _)
    rw [Diagnostic.reread, (h d hd).reread_eq]
    rfl
  rw [reread, hsame]

/-- An integer is not written if it has too many digits. -/
theorem isWritable_eq_false {n : Int} : isWritable n = false ↔ Nat.pow 10 maxDigits ≤ n.natAbs := by
  rw [isWritable, decide_eq_false_iff_not, Nat.not_lt]

private theorem render_json {r : Report} (h : (Format.json.integers r).all isWritable = true) :
    Format.json.render r = .ok (Text.points r.json) := by
  rw [Format.render, if_pos h]
  rfl

/-- A report is written as JSON unless an integer has more than 4300 digits. The text is ASCII and
stands for an object whose fields are, in this order, those of the report, the number of its
diagnostics and its verdict, with the halves of characters joined in messages. So a report without
such halves is given back, and no other such report has the same text. -/
theorem json_gives_report_back (r : Report) :
    (Format.json.render r = .error {} ↔
      ∃ n ∈ Format.json.integers r, Nat.pow 10 maxDigits ≤ n.natAbs) ∧
    ∀ ps, Format.json.render r = .ok ps → ∃ text, ps = Text.points text ∧
      (∀ c ∈ text.toList, c.toNat < 128) ∧
      (∃ fields, Json.decode text = some (.obj fields) ∧ ofJson? (.obj fields) = some r.reread ∧
        fields.map Prod.fst = ["created_at", "files_scanned", "diagnostics", "skipped", "errors",
          "count", "passed"] ∧
        fields.lookup "count" = some (.int r.diagnostics.length) ∧
        fields.lookup "passed" = some (.bool r.diagnostics.isEmpty)) ∧
      ((∀ d ∈ r.diagnostics, Text.IsApart d.message) → r.reread = r) ∧
      ∀ r' : Report, Format.json.render r' = .ok ps → r'.reread = r.reread := by
  have hpoints {r : Report} {ps : List Nat} (h : Format.json.render r = .ok ps) :
      ps = Text.points r.json := by
    unfold Format.render at h
    split at h
    · exact (Except.ok.inj h).symm
    · cases h
  refine ⟨?_, fun ps hps => ⟨r.json, hpoints hps, ?_, ?_, reread_of_apart, ?_⟩⟩
  · simp only [← isWritable_eq_false]
    unfold Format.render
    split
    · next hall => simpa using hall
    · next hall => simpa using hall
  · intro c hc
    rw [json, Json.render, String.toList_ofList] at hc
    exact Json.chars_ascii r.toJson 0 c hc
  · exact ⟨_, Json.decode_render r.toJson, ofJson?_toJson r, rfl, rfl, rfl⟩
  · intro r' hps'
    have htext : r'.json = r.json := by
      rw [← Text.lossy_points r'.json, ← hpoints hps', hpoints hps, Text.lossy_points]
    have hdecode := congrArg Json.decode htext
    rw [json, json, Json.decode_render, Json.decode_render] at hdecode
    have hreport := congrArg ofJson? (Option.some.inj hdecode)
    rw [ofJson?_toJson, ofJson?_toJson] at hreport
    exact Option.some.inj hreport

namespace HalfCharacter

/-- A report on one message with the given text. -/
def report (message : List Nat) : Report :=
  { diagnostics := [⟨"a.py", 1, 1, "logctx", "msg", message, "log.info().msg(\"a\")"⟩] }

/-- A report with half a character in a message is given back. -/
theorem half_given_back :
    ∃ text, Format.json.render (report [0xD800, 0x61]) = .ok (Text.points text) ∧
      (Json.decode text).bind ofJson? = some (report [0xD800, 0x61]) := by
  obtain ⟨-, hwritten⟩ := json_gives_report_back (report [0xD800, 0x61])
  have hrender := render_json (r := report [0xD800, 0x61]) (by decide +kernel)
  obtain ⟨text, htext, -, ⟨fields, hdecode, hread, -⟩, hsame, -⟩ := hwritten _ hrender
  have hapart : ∀ d ∈ (report [0xD800, 0x61]).diagnostics, Text.IsApart d.message :=
    List.forall_mem_singleton.mpr ⟨by decide, by decide⟩
  rw [hsame hapart] at hread
  exact ⟨text, by rw [hrender, htext], by rw [hdecode]; exact hread⟩

/-- The two halves of a character give the text of the character, and a report with an integer of
4301 digits has no text. -/
theorem halves_and_large_integer_lost :
    report [0xD800, 0xDC00] ≠ report [0x10000] ∧
      Format.json.render (report [0xD800, 0xDC00]) = Format.json.render (report [0x10000]) ∧
      Format.json.render (report [0x10000]) = .ok (Text.points (report [0x10000]).json) ∧
      Format.json.render { filesScanned := Nat.pow 10 maxDigits } = .error {} := by
  have hchars : (report [0xD800, 0xDC00]).toJson.chars 0 = (report [0x10000]).toJson.chars 0 := by
    decide +kernel
  have hjson : (report [0xD800, 0xDC00]).json = (report [0x10000]).json :=
    congrArg String.ofList hchars
  have hrender := render_json (r := report [0x10000]) (by decide +kernel)
  refine ⟨by decide, ?_, hrender, if_neg (by decide +kernel)⟩
  rw [render_json (by decide +kernel), hrender, hjson]

end HalfCharacter

end ContextLint.Report
