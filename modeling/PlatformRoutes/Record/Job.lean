import PlatformRoutes.Record.Fields

namespace PlatformRoutes

inductive JobStatus where
  | queued
  | running
  | finished
  | failed
  deriving DecidableEq

namespace JobStatus

def name : JobStatus → String
  | queued => "queued"
  | running => "running"
  | finished => "finished"
  | failed => "failed"

def all : List JobStatus := [queued, running, finished, failed]

def ofName? (s : String) : Option JobStatus :=
  all.find? fun k => k.name == s

def ofJson (v : Json) : Checked JobStatus :=
  match v with
  | .text s =>
    match ofName? s with
    | some k => .ok k
    | none => .fault .notListed
  | _ => .fault .notListed

def isTerminal : JobStatus → Bool
  | finished | failed => true
  | queued | running => false

end JobStatus

/-- Why a job failed, in the platform's words. -/
structure ErrorDetails where
  code : Int
  description : String
  errorCode : String
  deriving DecidableEq

namespace ErrorDetails

def ofFields (fields : Json.Fields) : Checked ErrorDetails :=
  (fun code description errorCode (_ : Unit) => ⟨code, description, errorCode⟩)
    <$> fields.optional "code" 0 Json.Fields.int
    <*> fields.optional "description" "" Json.Fields.text
    <*> fields.optional "error_code" "" Json.Fields.text
    <*> fields.noOthers ["code", "description", "error_code"]

def toFields (e : ErrorDetails) : Json.Fields :=
  [("code", .int e.code), ("description", .text e.description), ("error_code", .text e.errorCode)]

def ofJsonOrNull (v : Json) : Checked (Option ErrorDetails) :=
  match v with
  | .null => .ok none
  | .object fields => (ofFields fields).map some
  | _ => .fault .notRecord

end ErrorDetails

/-- A task that the platform carries out on its own time. -/
structure Job where
  id : String
  status : JobStatus
  details : Option ErrorDetails
  deriving DecidableEq

namespace Job

def ofFields (fields : Json.Fields) : Checked Job :=
  (fun id status details (_ : Unit) => ⟨id, status, details⟩)
    <$> fields.required "id" Json.Fields.nonEmptyText
    <*> fields.required "status" JobStatus.ofJson
    <*> fields.optional "error_details" none ErrorDetails.ofJsonOrNull
    <*> fields.noOthers ["id", "status", "error_details"]

def toFields (j : Job) : Json.Fields :=
  [("id", .text j.id), ("status", .text j.status.name),
    ("error_details", (j.details.map fun e => .object e.toFields).getD .null)]

end Job

end PlatformRoutes
