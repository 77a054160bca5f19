import TradeScript.Data.Basic
import TradeScript.Report
import TradeScript.Store

/-!
# TradeScript.Wire

Results as data. Diagnostics can also be read back, with all their fields.
-/

namespace TradeScript

namespace Position

def toData (p : Position) : Data :=
  .map [("line", .nat p.line.toNat), ("character", .nat p.character.toNat)]

def ofData? (d : Data) : Option Position := do
  let fields := ["line", "character"]
  guard (d.isRecord fields)
  let line ← (← d.field? fields "line").asUInt32?
  let character ← (← d.field? fields "character").asUInt32?
  some ⟨line, character⟩

end Position

namespace Range

def toData (r : Range) : Data :=
  .map [("start", r.start.toData), ("end", r.stop.toData)]

def ofData? (d : Data) : Option Range := do
  let fields := ["start", "end"]
  guard (d.isRecord fields)
  let start ← Position.ofData? (← d.field? fields "start")
  let stop ← Position.ofData? (← d.field? fields "end")
  some ⟨start, stop⟩

end Range

namespace Diagnostic

def toData (d : Diagnostic) : Data :=
  .map [("range", d.range.toData), ("message", .str d.message),
    ("severity", .str d.severity.tag), ("code", .str d.code.tag)]

def ofData? (d : Data) : Option Diagnostic := do
  let fields := ["range", "message", "severity", "code"]
  guard (d.isRecord fields)
  let range ← Range.ofData? (← d.field? fields "range")
  let message ← (← d.field? fields "message").asString?
  let severity ← Severity.ofTag? (← (← d.field? fields "severity").asTag?)
  let code ← Code.ofTag? (← (← d.field? fields "code").asTag?)
  some ⟨range, message, severity, code⟩

/-- A list of diagnostics as data. -/
def listData (ds : List Diagnostic) : Data :=
  .list (ds.map toData)

end Diagnostic

namespace Report

def toData (r : Report) : Data :=
  .map <| (match r.file with
    | some file => [("file", .str file)]
    | none => []) ++
    [("dialect", .str r.dialect.tag), ("diagnostics", Diagnostic.listData r.diagnostics),
     ("total_found", .nat r.totalFound), ("truncated", .bool r.truncated),
     ("errors", .nat (r.count .error)), ("warnings", .nat (r.count .warning)),
     ("information", .nat (r.count .information)), ("pass", .bool r.pass)]

end Report

namespace Publication

def toData : Publication → Data
  | applied => .map [("outcome", .str "applied")]
  | stale current => .map [("outcome", .str "stale"), ("current", .nat current)]

end Publication

namespace Published

def toData (p : Published) : Data :=
  .map [("revision", .nat p.revision), ("diagnostics", Diagnostic.listData p.diagnostics)]

end Published

end TradeScript
