/-
  WebBaseline.Proofs.Report.Encoding

  Everything that is kept or passed on as JSON is read back from its text.

    * occurrences, issues, the issues of a file, summaries and reports are
      codecs for those values whose numbers `Fit` their width; a report's time
      must be one that a clock can show;
    * `texts_round_trip` sums up, for all of these, for what is known about a
      feature and for settings: whatever is printed is read back, and a text that
      is read and printed again says the same from then on.
-/

import WebBaseline.Proofs.Baseline.Encoding
import WebBaseline.Proofs.Calendar.Moment
import WebBaseline.Proofs.Json.Codec
import WebBaseline.Proofs.Settings.Json
import WebBaseline.Report.Encoding

namespace WebBaseline.Report

open WebBaseline.Baseline (Info Status inverse_info inverse_status)
open WebBaseline.Calendar (Moment)
open WebBaseline.Feature (Occurrence)
open WebBaseline.Json (Codec Inverse Record RoundTrips Value members inverse_variant codec_text
  codec_bool codec_count codec_natBelow)

/-- A count of at most 64 bits. -/
def IsCount (n : Nat) : Prop := n < UInt64.size

instance (n : Nat) : Decidable (IsCount n) := Nat.decLt n UInt64.size

theorem codec_countToValue : Codec IsCount countToValue Value.count? := codec_count

theorem codec_severity : Codec (fun _ => True) Severity.toValue Severity.ofValue? :=
  Inverse.codec (inverse_variant Severity.ofWord?_word)

theorem codec_status : Codec (fun _ => True) Status.toValue Status.ofValue? := inverse_status.codec

/-- The moments of reports. -/
theorem codec_moment : Codec Moment.Proper (fun m => .str m.text)
    (fun v => (Value.text? v).bind Moment.ofText?) where
  read_write _ h := Moment.ofText?_text h
  exact_write _ _ := rfl
  write_ne_null _ := by simp
  fits_of_read v m h := by
    obtain ⟨text, -, hm⟩ := Option.bind_eq_some_iff.1 h
    exact Moment.proper_of_ofText? hm

/-! ## Occurrences -/

/-- Line and column, if there are any, are counts of at most 64 bits. -/
structure OccurrenceFits (o : Occurrence) : Prop where
  line : ∀ n ∈ o.line, IsCount n
  column : ∀ n ∈ o.column, IsCount n

/-- The fields of an occurrence, in order. -/
def occurrenceFields (o : Occurrence) : List (String × Option Value) :=
  [("identifier", some (.str o.identifier)), ("line", o.line.map countToValue),
    ("column", o.column.map countToValue), ("context", o.context.map .str)]

theorem occurrenceOfValue?_fields (o : Occurrence) (h : OccurrenceFits o) :
    occurrenceOfValue? (.obj (members (occurrenceFields o))) = some o := by
  have hnames : ((occurrenceFields o).map Prod.fst).Nodup := by
    show ["identifier", "line", "column", "context"].Nodup
    decide
  have hrecord : Record.ofValue? ["identifier", "line", "column", "context"]
      (.obj (members (occurrenceFields o))) = some ⟨false, members (occurrenceFields o)⟩ :=
    Record.ofValue?_members hnames
  rw [occurrenceOfValue?, hrecord]
  simp only [Option.bind_eq_bind, Option.bind_some,
    Record.required_members codec_text hnames "identifier" rfl trivial,
    Record.optional_members codec_countToValue hnames "line" rfl h.line,
    Record.optional_members codec_countToValue hnames "column" rfl h.column,
    Record.optional_members codec_text hnames "context" rfl (fun _ _ => trivial)]
  rfl

theorem codec_occurrence : Codec OccurrenceFits occurrenceToValue occurrenceOfValue? := by
  refine Codec.ofFields (fun o => ?_) occurrenceOfValue?_fields (fun o ho f hf => ?_)
    (fun v o h => ?_)
  · simp [occurrenceToValue, occurrenceFields]
  · simp only [occurrenceFields, List.mem_cons, List.not_mem_nil, or_false] at hf
    rcases hf with rfl | rfl | rfl | rfl
    · exact codec_text.exact_some trivial
    · exact codec_countToValue.exact_map ho.line
    · exact codec_countToValue.exact_map ho.column
    · exact codec_text.exact_map (fun _ _ => trivial)
  · rw [occurrenceOfValue?] at h
    simp only [Option.bind_eq_bind, Option.bind_eq_some_iff] at h
    obtain ⟨r, -, _, -, line, hline, column, hcolumn, _, -, h⟩ := h
    obtain rfl := Option.some.inj h
    exact ⟨Record.fits_of_optional codec_countToValue hline,
      Record.fits_of_optional codec_countToValue hcolumn⟩

/-! ## Issues -/

namespace Issue

/-- Line and column, if there are any, are counts of at most 64 bits. -/
structure Fits (i : Issue) : Prop where
  line : ∀ n ∈ i.line, IsCount n
  column : ∀ n ∈ i.column, IsCount n

/-- The fields of an issue, in order. -/
def fields (i : Issue) : List (String × Option Value) :=
  [("feature", some (.str i.feature)), ("status", some i.status.toValue),
    ("line", i.line.map countToValue), ("column", i.column.map countToValue),
    ("context", i.context.map .str), ("severity", i.severity.map Severity.toValue),
    ("polyfillAvailable", i.polyfill.map .bool), ("alternativeApi", i.alternative.map .str)]

theorem ofValue?_fields (i : Issue) (h : i.Fits) : ofValue? (.obj (members i.fields)) = some i := by
  have hnames : (i.fields.map Prod.fst).Nodup := by
    show ["feature", "status", "line", "column", "context", "severity", "polyfillAvailable",
      "alternativeApi"].Nodup
    decide
  have hrecord : Record.ofValue? ["feature", "status", "line", "column", "context", "severity",
      "polyfillAvailable", "alternativeApi"] (.obj (members i.fields)) =
        some ⟨false, members i.fields⟩ :=
    Record.ofValue?_members hnames
  rw [ofValue?, hrecord]
  simp only [Option.bind_eq_bind, Option.bind_some,
    Record.required_members codec_text hnames "feature" rfl trivial,
    Record.required_members codec_status hnames "status" rfl trivial,
    Record.optional_members codec_countToValue hnames "line" rfl h.line,
    Record.optional_members codec_countToValue hnames "column" rfl h.column,
    Record.optional_members codec_text hnames "context" rfl (fun _ _ => trivial),
    Record.optional_members codec_severity hnames "severity" rfl (fun _ _ => trivial),
    Record.optional_members codec_bool hnames "polyfillAvailable" rfl
      (fun _ _ => trivial),
    Record.optional_members codec_text hnames "alternativeApi" rfl
      (fun _ _ => trivial)]
  rfl

theorem codec : Codec Fits toValue ofValue? := by
  refine Codec.ofFields (fun i => ?_) ofValue?_fields (fun i hi f hf => ?_) (fun v i h => ?_)
  · simp [toValue, fields]
  · simp only [fields, List.mem_cons, List.not_mem_nil, or_false] at hf
    rcases hf with rfl | rfl | rfl | rfl | rfl | rfl | rfl | rfl
    · exact codec_text.exact_some trivial
    · exact codec_status.exact_some trivial
    · exact codec_countToValue.exact_map hi.line
    · exact codec_countToValue.exact_map hi.column
    · exact codec_text.exact_map (fun _ _ => trivial)
    · exact codec_severity.exact_map (fun _ _ => trivial)
    · exact codec_bool.exact_map (fun _ _ => trivial)
    · exact codec_text.exact_map (fun _ _ => trivial)
  · rw [ofValue?] at h
    simp only [Option.bind_eq_bind, Option.bind_eq_some_iff] at h
    obtain ⟨r, -, _, -, _, -, line, hline, column, hcolumn, _, -, _, -, _, -, _, -, h⟩ := h
    obtain rfl := Option.some.inj h
    exact ⟨Record.fits_of_optional codec_countToValue hline,
      Record.fits_of_optional codec_countToValue hcolumn⟩

end Issue

namespace FileIssues

/-- All issues fit. -/
def Fits (f : FileIssues) : Prop := ∀ i ∈ f.issues, i.Fits

/-- The fields of the issues of a file, in order. -/
def fields (f : FileIssues) : List (String × Option Value) :=
  [("filePath", some (.str f.path)), ("issues", some (.arr (f.issues.map Issue.toValue)))]

theorem ofValue?_fields (f : FileIssues) (h : f.Fits) :
    ofValue? (.obj (members f.fields)) = some f := by
  have hnames : (f.fields.map Prod.fst).Nodup := by
    show ["filePath", "issues"].Nodup
    decide
  have hrecord : Record.ofValue? ["filePath", "issues"] (.obj (members f.fields)) =
      some ⟨false, members f.fields⟩ :=
    Record.ofValue?_members hnames
  rw [ofValue?, hrecord]
  simp only [Option.bind_eq_bind, Option.bind_some,
    Record.required_members codec_text hnames "filePath" rfl trivial,
    Record.required_members Issue.codec.list hnames "issues" rfl h]
  rfl

theorem codec : Codec Fits toValue ofValue? := by
  refine Codec.ofFields (fun f => rfl) ofValue?_fields (fun f hf g hg => ?_) (fun v f h => ?_)
  · simp only [fields, List.mem_cons, List.not_mem_nil, or_false] at hg
    rcases hg with rfl | rfl
    · exact codec_text.exact_some trivial
    · exact Issue.codec.list.exact_some hf
  · rw [ofValue?] at h
    simp only [Option.bind_eq_bind, Option.bind_eq_some_iff] at h
    obtain ⟨r, -, path, -, issues, hissues, h⟩ := h
    obtain rfl := Option.some.inj h
    exact Record.fits_of_required Issue.codec.list hissues

end FileIssues

/-! ## Summaries -/

namespace StatusCounts

/-- All counts have at most 64 bits. -/
structure Fits (c : StatusCounts) : Prop where
  widely : IsCount c.widely
  newly : IsCount c.newly
  limited : IsCount c.limited
  unknown : IsCount c.unknown

/-- The fields of counts by status, in order. -/
def fields (c : StatusCounts) : List (String × Option Value) :=
  [("widelyAvailable", some (countToValue c.widely)),
    ("newlyAvailable", some (countToValue c.newly)), ("limited", some (countToValue c.limited)),
    ("unknown", some (countToValue c.unknown))]

theorem ofValue?_fields (c : StatusCounts) (h : c.Fits) :
    ofValue? (.obj (members c.fields)) = some c := by
  have hnames : (c.fields.map Prod.fst).Nodup := by
    show ["widelyAvailable", "newlyAvailable", "limited", "unknown"].Nodup
    decide
  have hrecord : Record.ofValue? ["widelyAvailable", "newlyAvailable", "limited", "unknown"]
      (.obj (members c.fields)) = some ⟨false, members c.fields⟩ :=
    Record.ofValue?_members hnames
  rw [ofValue?, hrecord]
  simp only [Option.bind_eq_bind, Option.bind_some,
    Record.required_members codec_countToValue hnames "widelyAvailable" rfl h.widely,
    Record.required_members codec_countToValue hnames "newlyAvailable" rfl h.newly,
    Record.required_members codec_countToValue hnames "limited" rfl h.limited,
    Record.required_members codec_countToValue hnames "unknown" rfl h.unknown]
  rfl

theorem codec : Codec Fits toValue ofValue? := by
  refine Codec.ofFields (fun c => rfl) ofValue?_fields (fun c hc f hf => ?_) (fun v c h => ?_)
  · simp only [fields, List.mem_cons, List.not_mem_nil, or_false] at hf
    rcases hf with rfl | rfl | rfl | rfl
    · exact codec_countToValue.exact_some hc.widely
    · exact codec_countToValue.exact_some hc.newly
    · exact codec_countToValue.exact_some hc.limited
    · exact codec_countToValue.exact_some hc.unknown
  · rw [ofValue?] at h
    simp only [Option.bind_eq_bind, Option.bind_eq_some_iff] at h
    obtain ⟨r, -, widely, hwidely, newly, hnewly, limited, hlimited, unknown, hunknown, h⟩ := h
    obtain rfl := Option.some.inj h
    exact ⟨Record.fits_of_required codec_countToValue hwidely,
      Record.fits_of_required codec_countToValue hnewly,
      Record.fits_of_required codec_countToValue hlimited,
      Record.fits_of_required codec_countToValue hunknown⟩

end StatusCounts

namespace SeverityCounts

/-- All counts have at most 64 bits. -/
structure Fits (c : SeverityCounts) : Prop where
  high : IsCount c.high
  medium : IsCount c.medium
  low : IsCount c.low

/-- The fields of counts by severity, in order. -/
def fields (c : SeverityCounts) : List (String × Option Value) :=
  [("high", some (countToValue c.high)), ("medium", some (countToValue c.medium)),
    ("low", some (countToValue c.low))]

theorem ofValue?_fields (c : SeverityCounts) (h : c.Fits) :
    ofValue? (.obj (members c.fields)) = some c := by
  have hnames : (c.fields.map Prod.fst).Nodup := by
    show ["high", "medium", "low"].Nodup
    decide
  have hrecord : Record.ofValue? ["high", "medium", "low"] (.obj (members c.fields)) =
      some ⟨false, members c.fields⟩ :=
    Record.ofValue?_members hnames
  rw [ofValue?, hrecord]
  simp only [Option.bind_eq_bind, Option.bind_some,
    Record.required_members codec_countToValue hnames "high" rfl h.high,
    Record.required_members codec_countToValue hnames "medium" rfl h.medium,
    Record.required_members codec_countToValue hnames "low" rfl h.low]
  rfl

theorem codec : Codec Fits toValue ofValue? := by
  refine Codec.ofFields (fun c => rfl) ofValue?_fields (fun c hc f hf => ?_) (fun v c h => ?_)
  · simp only [fields, List.mem_cons, List.not_mem_nil, or_false] at hf
    rcases hf with rfl | rfl | rfl
    · exact codec_countToValue.exact_some hc.high
    · exact codec_countToValue.exact_some hc.medium
    · exact codec_countToValue.exact_some hc.low
  · rw [ofValue?] at h
    simp only [Option.bind_eq_bind, Option.bind_eq_some_iff] at h
    obtain ⟨r, -, high, hhigh, medium, hmedium, low, hlow, h⟩ := h
    obtain rfl := Option.some.inj h
    exact ⟨Record.fits_of_required codec_countToValue hhigh,
      Record.fits_of_required codec_countToValue hmedium,
      Record.fits_of_required codec_countToValue hlow⟩

end SeverityCounts

namespace Summary

/-- All counts have at most 64 bits, and the score at most eight. -/
structure Fits (s : Summary) : Prop where
  filesScanned : IsCount s.filesScanned
  filesWithIssues : IsCount s.filesWithIssues
  totalIssues : IsCount s.totalIssues
  byStatus : s.byStatus.Fits
  bySeverity : s.bySeverity.Fits
  score : s.score < UInt8.size

/-- The fields of a summary, in order. -/
def fields (s : Summary) : List (String × Option Value) :=
  [("filesScanned", some (countToValue s.filesScanned)),
    ("filesWithIssues", some (countToValue s.filesWithIssues)),
    ("totalIssues", some (countToValue s.totalIssues)), ("byStatus", some s.byStatus.toValue),
    ("bySeverity", some s.bySeverity.toValue),
    ("compatibilityScore", some (countToValue s.score))]

theorem codec_score : Codec (fun n => n < UInt8.size) countToValue
    (Value.natBelow? UInt8.size) := codec_natBelow (by decide)

theorem ofValue?_fields (s : Summary) (h : s.Fits) :
    ofValue? (.obj (members s.fields)) = some s := by
  have hnames : (s.fields.map Prod.fst).Nodup := by
    show ["filesScanned", "filesWithIssues", "totalIssues", "byStatus", "bySeverity",
      "compatibilityScore"].Nodup
    decide
  have hrecord : Record.ofValue? ["filesScanned", "filesWithIssues", "totalIssues", "byStatus",
      "bySeverity", "compatibilityScore"] (.obj (members s.fields)) =
        some ⟨false, members s.fields⟩ :=
    Record.ofValue?_members hnames
  rw [ofValue?, hrecord]
  simp only [Option.bind_eq_bind, Option.bind_some,
    Record.required_members codec_countToValue hnames "filesScanned" rfl
      h.filesScanned,
    Record.required_members codec_countToValue hnames "filesWithIssues" rfl
      h.filesWithIssues,
    Record.required_members codec_countToValue hnames "totalIssues" rfl h.totalIssues,
    Record.required_members StatusCounts.codec hnames "byStatus" rfl h.byStatus,
    Record.required_members SeverityCounts.codec hnames "bySeverity" rfl h.bySeverity,
    Record.required_members codec_score hnames "compatibilityScore" rfl h.score]
  rfl

theorem codec : Codec Fits toValue ofValue? := by
  refine Codec.ofFields (fun s => rfl) ofValue?_fields (fun s hs f hf => ?_) (fun v s h => ?_)
  · simp only [fields, List.mem_cons, List.not_mem_nil, or_false] at hf
    rcases hf with rfl | rfl | rfl | rfl | rfl | rfl
    · exact codec_countToValue.exact_some hs.filesScanned
    · exact codec_countToValue.exact_some hs.filesWithIssues
    · exact codec_countToValue.exact_some hs.totalIssues
    · exact StatusCounts.codec.exact_some hs.byStatus
    · exact SeverityCounts.codec.exact_some hs.bySeverity
    · exact codec_score.exact_some hs.score
  · rw [ofValue?] at h
    simp only [Option.bind_eq_bind, Option.bind_eq_some_iff] at h
    obtain ⟨r, -, scanned, hscanned, withIssues, hwith, total, htotal, byStatus, hstatus,
      bySeverity, hseverity, score, hscore, h⟩ := h
    obtain rfl := Option.some.inj h
    exact ⟨Record.fits_of_required codec_countToValue hscanned,
      Record.fits_of_required codec_countToValue hwith,
      Record.fits_of_required codec_countToValue htotal,
      Record.fits_of_required StatusCounts.codec hstatus,
      Record.fits_of_required SeverityCounts.codec hseverity,
      Record.fits_of_required codec_score hscore⟩

end Summary

/-! ## Reports -/

namespace Document

/-- The time can be shown by a clock, and all numbers in the report fit. -/
structure Fits (d : Document) : Prop where
  scanTime : d.scanTime.Proper
  files : ∀ f ∈ d.files, f.Fits
  summary : d.summary.Fits
  catalogVersion : d.catalogVersion < UInt32.size

/-- The fields of a report, in order. -/
def fields (d : Document) : List (String × Option Value) :=
  [("scanTime", some (.str d.scanTime.text)), ("root", some (.str d.root)),
    ("results", some (.arr (d.files.map FileIssues.toValue))), ("summary", some d.summary.toValue),
    ("tablesVersion", some (countToValue d.catalogVersion))]

theorem codec_version : Codec (fun n => n < UInt32.size) countToValue
    (Value.natBelow? UInt32.size) := codec_natBelow (by decide)

theorem ofValue?_fields (d : Document) (h : d.Fits) :
    ofValue? (.obj (members d.fields)) = some d := by
  have hnames : (d.fields.map Prod.fst).Nodup := by
    show ["scanTime", "root", "results", "summary", "tablesVersion"].Nodup
    decide
  have hrecord : Record.ofValue? ["scanTime", "root", "results", "summary", "tablesVersion"]
      (.obj (members d.fields)) = some ⟨false, members d.fields⟩ :=
    Record.ofValue?_members hnames
  rw [ofValue?, hrecord]
  simp only [Option.bind_eq_bind, Option.bind_some,
    Record.required_members codec_moment hnames "scanTime" rfl h.scanTime,
    Record.required_members codec_text hnames "root" rfl trivial,
    Record.required_members FileIssues.codec.list hnames "results" rfl h.files,
    Record.required_members Summary.codec hnames "summary" rfl h.summary,
    Record.required_members codec_version hnames "tablesVersion" rfl h.catalogVersion]
  rfl

theorem codec : Codec Fits toValue ofValue? := by
  refine Codec.ofFields (fun d => rfl) ofValue?_fields (fun d hd f hf => ?_) (fun v d h => ?_)
  · simp only [fields, List.mem_cons, List.not_mem_nil, or_false] at hf
    rcases hf with rfl | rfl | rfl | rfl | rfl
    · exact codec_moment.exact_some hd.scanTime
    · exact codec_text.exact_some trivial
    · exact FileIssues.codec.list.exact_some hd.files
    · exact Summary.codec.exact_some hd.summary
    · exact codec_version.exact_some hd.catalogVersion
  · rw [ofValue?] at h
    simp only [Option.bind_eq_bind, Option.bind_eq_some_iff] at h
    obtain ⟨r, -, time, htime, root, -, files, hfiles, summary, hsummary, version, hversion, h⟩ := h
    obtain rfl := Option.some.inj h
    exact ⟨Record.fits_of_required codec_moment htime,
      Record.fits_of_required FileIssues.codec.list hfiles,
      Record.fits_of_required Summary.codec hsummary,
      Record.fits_of_required codec_version hversion⟩

end Document

/-! ## Texts of all kinds -/

/-- Occurrences, issues, the issues of a file, what is known about a feature,
    summaries, settings and reports are read back from the texts that are printed
    of them; and whatever text of one of these is read, the text that is printed
    of it says the same, and reading and printing once more changes nothing. -/
theorem texts_round_trip :
    RoundTrips OccurrenceFits occurrenceToValue occurrenceOfValue? ∧
    RoundTrips Issue.Fits Issue.toValue Issue.ofValue? ∧
    RoundTrips FileIssues.Fits FileIssues.toValue FileIssues.ofValue? ∧
    RoundTrips (fun _ => True) Info.toValue Info.ofValue? ∧
    RoundTrips Summary.Fits Summary.toValue Summary.ofValue? ∧
    RoundTrips (fun _ => True) Settings.toJson Settings.ofJson? ∧
    RoundTrips Document.Fits Document.toValue Document.ofValue? :=
  ⟨codec_occurrence.roundTrips, Issue.codec.roundTrips, FileIssues.codec.roundTrips,
    inverse_info.codec.roundTrips, Summary.codec.roundTrips, Settings.codec_settings.roundTrips,
    Document.codec.roundTrips⟩

/-- An issue in the last line that can be counted, with quotes and a tab in its context. -/
def dialogIssue : Issue where
  feature := "html-element-dialog"
  status := .newly
  line := some (2 ^ 64 - 1)
  column := some 1
  context := some "<dialog id=\"é\">\t"
  severity := some .medium

/-- The issues of a file, one of them at no place and of no severity. -/
def dialogFile : FileIssues :=
  ⟨"site/à.html", [dialogIssue, { feature := "gap", status := .unknown }]⟩

/-- A report on this file, made in a leap second. -/
def dialogReport : Document :=
  .ofFiles ⟨⟨2016, 12, 31, by decide⟩, 23, 59, 60, 5⟩ "site" [dialogFile]

/-- The report fits, and so do its summary, its file and the issue: all of them are read
    back from their texts. -/
theorem texts_round_trip_dialogReport :
    (dialogIssue.Fits ∧
      (Json.parse dialogIssue.toValue.compact).bind Issue.ofValue? = some dialogIssue) ∧
    (dialogFile.Fits ∧
      (Json.parse dialogFile.toValue.compact).bind FileIssues.ofValue? = some dialogFile) ∧
    (dialogReport.summary.Fits ∧
      (Json.parse dialogReport.summary.toValue.compact).bind Summary.ofValue? =
        some dialogReport.summary) ∧
    (dialogReport.Fits ∧
      (Json.parse dialogReport.toValue.compact).bind Document.ofValue? = some dialogReport ∧
      (Json.parse dialogReport.toValue.pretty).bind Document.ofValue? = some dialogReport) := by
  have hissue : dialogIssue.Fits := by
    constructor <;> (rintro _ ⟨⟩; decide)
  have hfile : dialogFile.Fits := by
    intro i hi
    simp only [dialogFile, List.mem_cons, List.not_mem_nil, or_false] at hi
    rcases hi with rfl | rfl
    · exact hissue
    · constructor <;> rintro _ ⟨⟩
  have hsummary : dialogReport.summary.Fits :=
    ⟨by decide, by decide, by decide, ⟨by decide, by decide, by decide, by decide⟩,
      ⟨by decide, by decide, by decide⟩, by decide +kernel⟩
  have hreport : dialogReport.Fits := by
    refine ⟨⟨by decide, by decide, by decide, by decide⟩, fun f hf => ?_, hsummary, by decide⟩
    exact List.mem_singleton.1 hf ▸ hfile
  obtain ⟨-, hissues, hfiles, -, hsummaries, -, hdocuments⟩ := texts_round_trip
  exact ⟨⟨hissue, hissues.compact.read_print _ hissue⟩,
    ⟨hfile, hfiles.compact.read_print _ hfile⟩,
    ⟨hsummary, hsummaries.compact.read_print _ hsummary⟩, hreport,
    hdocuments.compact.read_print _ hreport, hdocuments.pretty.read_print _ hreport⟩

end WebBaseline.Report
