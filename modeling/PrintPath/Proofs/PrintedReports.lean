import PrintPath.CommandLine.Program
import PrintPath.Proofs.Decoding

/-!
# What is printed for reports in JSON

The program makes one value of all reports and writes it with each element on lines of its own.
What comes of that is an array (`arrayOf`) of texts that belong to one report each
(`Report.element`), and both can be given down to the last blank without any value in between.
`printed_json` says so, by way of what is written for an array and for an object
(`Json.prettyAt_array`, `Json.prettyAt_object`).

There is such a value only if the paths of all reports are texts (`Report.mapM_toJson?`).  A path
that is a text is printed as it would be shown to a reader, so the elements can be told from
what is shown.
-/

namespace PrintPath
namespace Report

/-! ## A report as an element of an array -/

/-- A field of a report as it is printed in JSON. -/
def field (name value : String) : String :=
  "\"" ++ name ++ "\": " ++ value

/-- What is printed in JSON for a report: its fields, each on a line of its own. -/
def element (report : Report) : String :=
  let summary := report.summary
  let number := Json.numberLayout.write
  "\x7b\n    " ++ ",\n    ".intercalate
    [field "path" (Json.quote report.path.shown),
      field "layers" (toString summary.layers),
      field "segments" (toString summary.segments),
      field "points" (toString summary.points),
      field "extrusion_mm" (number summary.extrusion),
      field "duration_minutes" (number summary.minutes),
      field "preamble_ended" (if summary.preambleEnded then "true" else "false"),
      field "diagnostics" (toString summary.diagnostics),
      field "weight_kg" (number report.weight),
      field "cost" (report.cost.elim "null" Json.quote)]
    ++ "\n  \x7d"

/-- A report as JSON, in which the path is named as it is shown. -/
def shownJson (report : Report) : Json :=
  .object (("path", .text report.path.shown) :: report.summary.fields
    ++ [("weight_kg", .float report.weight), ("cost", .ofOption report.cost)])

theorem toJson?_of_isText {report : Report} (h : report.path.IsText) :
    report.toJson? = some report.shownJson := by
  unfold toJson?
  rw [RawText.text?_of_isText h]
  rfl

theorem toJson?_of_not_isText {report : Report} (h : ¬ report.path.IsText) :
    report.toJson? = none := by
  unfold toJson?
  rw [Option.not_isSome_iff_eq_none.mp h]
  rfl

/-- There is JSON for some reports exactly if all their paths are texts. -/
theorem mapM_toJson? (reports : List Report) :
    reports.mapM toJson? =
      if ∀ report ∈ reports, report.path.IsText then some (reports.map shownJson)
      else none := by
  induction reports with
  | nil => rfl
  | cons report rest ih =>
    have hcons : (∀ other ∈ report :: rest, other.path.IsText) ↔
        report.path.IsText ∧ ∀ other ∈ rest, other.path.IsText := List.forall_mem_cons
    rw [List.mapM_cons, ih]
    by_cases hreport : report.path.IsText
    · rw [toJson?_of_isText hreport]
      by_cases hrest : ∀ other ∈ rest, other.path.IsText
      · rw [if_pos hrest, if_pos (hcons.mpr ⟨hreport, hrest⟩)]
        rfl
      · rw [if_neg hrest, if_neg fun h => hrest (hcons.mp h).2]
        rfl
    · rw [toJson?_of_not_isText hreport, if_neg fun h => hreport (hcons.mp h).1]
      rfl

/-- The names of the fields are not escaped. -/
theorem quote_name {name : String} (h : name.toList.flatMap Json.escape = name.toList)
    (value : String) : Json.quote name ++ ": " ++ value = field name value := by
  have hmiddle : "\": " = "\"" ++ ": " := by decide
  unfold Json.quote field
  rw [h, String.ofList_toList, hmiddle]
  simp only [String.append_assoc]

/-- **A report inside an array is printed as its element.** -/
theorem prettyAt_shownJson (report : Report) :
    Json.prettyAt 1 report.shownJson = report.element := by
  have hstart : "\x7b" ++ Json.indent 2 = "\x7b\n    " := by decide
  have hbetween : "," ++ Json.indent 2 = ",\n    " := by decide
  have hend : Json.indent 1 ++ "\x7d" = "\n  \x7d" := by decide
  have hcost : Json.prettyAt 2 (.ofOption report.cost) = report.cost.elim "null" Json.quote := by
    cases report.cost <;> rfl
  unfold shownJson
  simp only [Summary.fields, List.cons_append, List.nil_append]
  rw [Json.prettyAt_object 1 (List.cons_ne_nil _ _), String.append_assoc, hstart, hbetween, hend]
  simp (disch := decide) only [List.map_cons, List.map_nil, quote_name]
  rw [hcost]
  simp only [Json.prettyAt]
  rfl

end Report

namespace CommandLine

/-! ## The array of all reports -/

/-- The array that is printed for some elements, each of them on lines of its own. -/
def arrayOf (elements : List String) : String :=
  "[\n  " ++ ",\n  ".intercalate elements ++ "\n]\n"

/-- **Reports are printed in JSON as an array of their elements.** -/
theorem printed_json {reports : List Report} (hne : reports ≠ [])
    (htexts : ∀ report ∈ reports, report.path.IsText) :
    printed true reports = .ok (arrayOf (reports.map Report.element)) := by
  have hstart : "[" ++ Json.indent 1 = "[\n  " := by decide
  have hbetween : "," ++ Json.indent 1 = ",\n  " := by decide
  have hend : Json.indent 0 ++ ("]" ++ "\n") = "\n]\n" := by decide
  have helements : (reports.map Report.shownJson).map (Json.prettyAt 1) =
      reports.map Report.element := by
    rw [List.map_map]
    exact List.map_congr_left fun report _ => report.prettyAt_shownJson
  unfold printed
  rw [if_pos rfl, Report.mapM_toJson?, if_pos htexts]
  show Except.ok (Json.prettyAt 0 (.array (reports.map Report.shownJson)) ++ "\n") = _
  rw [Json.prettyAt_array 0 (mt List.map_eq_nil_iff.mp hne), helements, String.append_assoc,
    String.append_assoc, hstart, hbetween, hend]
  rfl

/-- If the path of one of them is no text, reports are not printed in JSON. -/
theorem printed_json_of_not_isText {reports : List Report} {report : Report}
    (hmem : report ∈ reports) (h : ¬ report.path.IsText) :
    printed true reports = .error .pathNotText := by
  unfold printed
  rw [if_pos rfl, Report.mapM_toJson?, if_neg fun htexts => h (htexts report hmem)]

end CommandLine
end PrintPath
