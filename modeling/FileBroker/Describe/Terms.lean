import FileBroker.Data.Value
import FileBroker.Kind
import FileBroker.Revision
import FileBroker.Status

/-! Kinds, statuses and revisions as structured data. -/
namespace FileBroker.Describe

open Data

def kind (kind : Kind) : Value :=
  .table
    [("kind", .text kind.name), ("as_u32", .ofNat kind.number.toNat),
     ("policy", .text kind.admission.name)]

def status (status : Status) : Value :=
  .table
    [("value", .ofNat status.code.toNat), ("display", .text status.text),
     ("success", .bool status.isSuccess), ("pending", .bool status.isPending)]

def revision (revision : Revision) : Value :=
  .table
    [("version", .text revision.keyword), ("as_u16", .ofNat revision.number.toNat),
     ("max_request", .ofNat revision.messageLimit),
     ("max_response", .ofNat revision.messageLimit)]

end FileBroker.Describe
