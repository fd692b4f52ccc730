import ContextLint.Proofs.Rule.Coverage
import ContextLint.Proofs.Scan.Outcome
import ContextLint.Proofs.Source.NodeLines

/-!
# The line that a diagnostic shows

A diagnostic gives a line by its number among the lines of the source text and shows the line of
that number of the display text. The two are the same line as long as no character that ends a line
of display text only stands before the end of the line.
-/

namespace ContextLint.Text

/-- A line as it is shown: trimmed and cut. -/
def shown (cs : List Char) : String := String.ofList ((trim cs).take 160)

private theorem excerpt_of_getElem? {lines : List (List Char)} {n : Nat} {cs : List Char}
    (h : lines[n]? = some cs) :
    excerpt lines.toArray (n + 1 : Nat) Rule.excerptLimit = shown cs := by
  have hindex : ((n + 1 : Nat) : Int).toNat - 1 = n := rfl
  rw [excerpt, if_pos (by omega), hindex, List.getElem?_toArray, h]
  rfl

end ContextLint.Text

namespace ContextLint.Rule

open Source Report Typing

variable {characters : CharacterNames} {m : Source.Module} {source : List Char}
  {filename moduleName : String}
  {settings : Settings} {library : Library}

private theorem Analysis.lines_of_ok {a : Analysis}
    (h : ofModule m source filename moduleName settings library = .ok a) :
    a.lines = (Text.splitLines source).toArray := by
  obtain ⟨info, -, rfl⟩ := eq_of_ofModule h
  rfl

/-- A reported call is an expression of the module. -/
theorem Analysis.mem_nodes_of_mem_reported {a : Analysis} {c : Expr} (h : c ∈ a.reported m) :
    c ∈ m.nodes := by
  have hjudged := (a.reported_sublist m).mem h
  rw [a.judgedCalls_eq, (callsAll_moduleActs_perm m).mem_iff, List.mem_filter] at hjudged
  rw [m.nodes_perm.mem_iff]
  exact List.mem_append_left _ hjudged.1

/-- The line of a diagnostic is a line of the source text, and the line that it shows is the line of
the same number of the display text. If no break stands above the line, it shows the front of the
line, which is the whole line if no break stands in it. Otherwise it shows a part of a line above.
-/
theorem snippet_of_display_line {ds : List Diagnostic} {d : Diagnostic}
    (hparse : parseModule characters source = .ok m)
    (hcheck : checkModule m source filename moduleName settings library = .ok ds) (hd : d ∈ ds) :
    ∃ above line below displayed, Text.sourceLines source = above ++ line :: below ∧
      d.line = above.length + 1 ∧ (Text.splitLines source)[above.length]? = some displayed ∧
      d.snippet = Text.shown displayed ∧
      (Text.breaksIn above = 0 → displayed = line.front) ∧
      (Text.breaksIn above = 0 → line.breaks = 0 → displayed = line.text) ∧
      (Text.breaksIn above ≠ 0 →
        ∃ a ∈ above, ∃ part ∈ Text.displayLines a.whole, displayed = part.text) := by
  obtain ⟨a, ha, -, rfl⟩ := exists_of_checkModule_ok hcheck
  rw [a.check_eq_reported, List.mem_mergeSort] at hd
  obtain ⟨c, hc, rfl⟩ := List.mem_map.mp hd
  obtain ⟨above, line, below, hlines, hnumber⟩ :=
    exists_line_of_parseModule hparse (Analysis.mem_nodes_of_mem_reported hc)
  have hline : (a.diagnosticOf c).line = above.length + 1 := congrArg Int.ofNat hnumber
  have hsnippet {displayed : List Char}
      (h : (Text.splitLines source)[above.length]? = some displayed) :
      (a.diagnosticOf c).snippet = Text.shown displayed := by
    change Text.excerpt a.lines c.span.line excerptLimit = _
    rw [Analysis.lines_of_ok ha, hnumber]
    exact Text.excerpt_of_getElem? h
  by_cases hbreaks : Text.breaksIn above = 0
  · have hfront := Text.splitLines_of_no_breaks hlines hbreaks
    refine ⟨above, line, below, line.front, hlines, hline, hfront, hsnippet hfront, fun _ => rfl,
      fun _ hline => Text.Line.front_of_no_breaks hline, fun h => absurd hbreaks h⟩
  · obtain ⟨l, hl, part, hpart, hdisplayed⟩ := Text.splitLines_of_breaks hlines hbreaks
    exact ⟨above, line, below, part.text, hlines, hline, hdisplayed, hsnippet hdisplayed,
      fun h => absurd h hbreaks, fun h => absurd h hbreaks, fun _ => ⟨l, hl, part, hpart, rfl⟩⟩

namespace FormFeed

/-- A text with a form feed in a string literal above a message. -/
def text : List Char := "from zerolog import log\nx = \"\x0c\"\nlog.info().msg(\"a\")\n".toList

private theorem parse_text :
    ∃ m, parseModule default text = .ok m ∧
      ∃ a, Analysis.ofModule m text "x.py" "x" {} .standard = .ok a ∧
        ∃ c ∈ a.reported m, (a.diagnosticOf c).line = 3 ∧ (a.diagnosticOf c).snippet = "\"" := by
  decide +kernel

/-- The message is reported on the third line, and the diagnostic shows the end of the second. -/
theorem exists_diagnostic :
    ∃ m ds d, parseModule default text = .ok m ∧
      checkModule m text "x.py" "x" {} .standard = .ok ds ∧ d ∈ ds ∧ d.line = 3 ∧
      d.snippet = "\"" := by
  obtain ⟨m, hparse, a, ha, c, hc, hline, hsnippet⟩ := parse_text
  refine ⟨m, a.check m, a.diagnosticOf c, hparse, checkModule_of_ok ha, ?_, hline, hsnippet⟩
  rw [a.check_eq_reported, List.mem_mergeSort]
  exact List.mem_map_of_mem hc

/-- The diagnostic of a message below a form feed does not show the line of the message. -/
theorem snippet_of_other_line :
    ∃ m ds d above line below, parseModule default text = .ok m ∧
      checkModule m text "x.py" "x" {} .standard = .ok ds ∧ d ∈ ds ∧
      Text.sourceLines text = above ++ line :: below ∧ d.line = above.length + 1 ∧
      Text.shown line.text = "log.info().msg(\"a\")" ∧ d.snippet ≠ Text.shown line.text := by
  obtain ⟨m, ds, d, hparse, hcheck, hd, hline, hsnippet⟩ := exists_diagnostic
  refine ⟨m, ds, d, (Text.sourceLines text).take 2,
    ⟨"log.info().msg(\"a\")".toList, ['\n']⟩, [], hparse, hcheck, hd, ?_, ?_, ?_, ?_⟩
  · decide +kernel
  · rw [hline]
    decide +kernel
  · decide +kernel
  · rw [hsnippet]
    decide +kernel

/-- Below the form feed the diagnostic shows a part of a line above the message. -/
theorem snippet_of_part_above :
    ∃ m ds d, parseModule default text = .ok m ∧
      checkModule m text "x.py" "x" {} .standard = .ok ds ∧ d ∈ ds ∧
      ∃ above line below displayed, Text.sourceLines text = above ++ line :: below ∧
        d.line = above.length + 1 ∧ (Text.splitLines text)[above.length]? = some displayed ∧
        d.snippet = Text.shown displayed ∧
        (Text.breaksIn above = 0 → displayed = line.front) ∧
        (Text.breaksIn above = 0 → line.breaks = 0 → displayed = line.text) ∧
        (Text.breaksIn above ≠ 0 →
          ∃ a ∈ above, ∃ part ∈ Text.displayLines a.whole, displayed = part.text) := by
  obtain ⟨m, ds, d, hparse, hcheck, hd, -, -⟩ := exists_diagnostic
  exact ⟨m, ds, d, hparse, hcheck, hd, snippet_of_display_line hparse hcheck hd⟩

end FormFeed

end ContextLint.Rule
