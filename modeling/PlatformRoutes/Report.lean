import PlatformRoutes.Json.Printer
import PlatformRoutes.Record.RouteRecord
import PlatformRoutes.Text.Blank

namespace PlatformRoutes.Report

/-- A column of the table: its heading, and what it shows of a route. -/
structure Column where
  heading : String
  cell : RouteRecord → String

def columns : List Column := [
  ⟨"space", RouteRecord.space⟩,
  ⟨"host", RouteRecord.host⟩,
  ⟨"domain", RouteRecord.domain⟩,
  ⟨"path", RouteRecord.path⟩,
  ⟨"apps", fun r => ", ".intercalate r.applications⟩,
  ⟨"service", fun r => r.serviceInstanceId.getD ""⟩]

/-- The heading and every cell fit. -/
def Column.width (c : Column) (records : List RouteRecord) : Nat :=
  records.foldl (fun w r => max w (c.cell r).length) c.heading.length

def padded (cell : List Char) (width : Nat) : List Char :=
  cell ++ List.replicate (width - cell.length) ' '

def gap : List Char := [' ', ' ']

/-- Cells side by side, each as wide as its column, without blanks at the end. -/
def line (widths : List Nat) (cells : List String) : String :=
  String.ofList (Text.trimRight Text.isBlank
    (gap.intercalate ((cells.zip widths).map fun c => padded c.1.toList c.2)))

/-- As long as all columns with their gaps. -/
def rule (widths : List Nat) : String :=
  String.ofList (List.replicate (widths.foldr (· + ·) 0 + 2 * (widths.length - 1)) '-')

def countLine (n : Nat) : String :=
  toString n ++ (if n == 1 then " route" else " routes")

def tableLines (records : List RouteRecord) : List String :=
  let widths := columns.map fun c => c.width records
  [line widths (columns.map (·.heading)), rule widths] ++
    records.map (fun r => line widths (columns.map fun c => c.cell r)) ++
    ["", countLine records.length]

/-- The routes as a table in columns. -/
def table (records : List RouteRecord) : String :=
  "\n".intercalate (tableLines records)

def entry (r : RouteRecord) : Json :=
  .object [("id", .text r.id), ("host", .text r.host), ("domain", .text r.domain),
    ("path", .text r.path), ("space", .text r.space),
    ("applications", .list (r.applications.map .text)),
    ("service_instance_id", (r.serviceInstanceId.map .text).getD .null)]

/-- The routes as one JSON object. -/
def document (records : List RouteRecord) : Json :=
  .object [("routes", .list (records.map entry))]

def json (records : List RouteRecord) : String :=
  String.ofList (Json.pretty 0 (document records))

end PlatformRoutes.Report
