/-
  WebBaseline.Report.Document

  A report on the scan of a whole project.
-/

import WebBaseline.Calendar.Moment
import WebBaseline.Report.Summary

namespace WebBaseline.Report

open WebBaseline.Calendar (Moment)

/-- A report on a scan. -/
structure Document where
  scanTime : Moment
  root : Files.Path
  files : List FileIssues
  summary : Summary
  /-- The version of the catalog by which the sources were read. -/
  catalogVersion : Nat

/-- The report on the files found under a root at some time. -/
def Document.ofFiles (scanTime : Moment) (root : Files.Path) (files : List FileIssues) :
    Document :=
  { scanTime := scanTime
    root := root
    files := files
    summary := Summary.ofFiles files
    catalogVersion := Feature.Catalog.version }

end WebBaseline.Report
