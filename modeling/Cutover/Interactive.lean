import Cutover.Json.Record
import Cutover.Json.Value
import Cutover.Sql.Value

/-! The record that is migrated: how often one object was read, liked and collected. -/
namespace Cutover

/-- Times are milliseconds. -/
structure Interactive where
  id : Int64
  bizId : Int64
  biz : String
  readCnt : Int64
  likeCnt : Int64
  collectCnt : Int64
  utime : Int64
  ctime : Int64
  deriving DecidableEq, Inhabited

namespace Interactive

def table : String := "interactives"

/-- The mapped columns, the key first. -/
def columns : List String :=
  ["id", "biz_id", "biz", "read_cnt", "like_cnt", "collect_cnt", "utime", "ctime"]

/-- The column that tells when a record last changed. -/
def utimeColumn : String := "utime"

def toRow (e : Interactive) : Sql.Row :=
  [⟨"id", .int e.id⟩, ⟨"biz_id", .int e.bizId⟩, ⟨"biz", .text e.biz⟩, ⟨"read_cnt", .int e.readCnt⟩,
    ⟨"like_cnt", .int e.likeCnt⟩, ⟨"collect_cnt", .int e.collectCnt⟩, ⟨"utime", .int e.utime⟩,
    ⟨"ctime", .int e.ctime⟩]

/-- Reads the columns in their order; the first that is missing or of the wrong kind is the error. -/
def ofRow (row : Sql.Row) : Except Sql.Error Interactive := do
  let id ← Sql.Row.int64 row "id"
  let bizId ← Sql.Row.int64 row "biz_id"
  let biz ← Sql.Row.string row "biz"
  let readCnt ← Sql.Row.int64 row "read_cnt"
  let likeCnt ← Sql.Row.int64 row "like_cnt"
  let collectCnt ← Sql.Row.int64 row "collect_cnt"
  let utime ← Sql.Row.int64 row "utime"
  let ctime ← Sql.Row.int64 row "ctime"
  return { id, bizId, biz, readCnt, likeCnt, collectCnt, utime, ctime }

def toJson (e : Interactive) : Json :=
  .object [("id", .int e.id.toInt), ("biz_id", .int e.bizId.toInt), ("biz", .string e.biz),
    ("read_cnt", .int e.readCnt.toInt), ("like_cnt", .int e.likeCnt.toInt),
    ("collect_cnt", .int e.collectCnt.toInt), ("utime", .int e.utime.toInt),
    ("ctime", .int e.ctime.toInt)]

def ofJson (r : Json.Raw) : Option Interactive := do
  match ← Json.record (columns.map fun name => ⟨name, .required⟩) r with
  | [some id, some bizId, some biz, some readCnt, some likeCnt, some collectCnt, some utime,
      some ctime] =>
    return {
      id := ← Json.int64? id, bizId := ← Json.int64? bizId, biz := ← Json.string? biz
      readCnt := ← Json.int64? readCnt, likeCnt := ← Json.int64? likeCnt
      collectCnt := ← Json.int64? collectCnt, utime := ← Json.int64? utime
      ctime := ← Json.int64? ctime }
  | _ => none

end Interactive
end Cutover
