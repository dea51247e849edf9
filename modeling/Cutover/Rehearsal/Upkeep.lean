import Cutover.Rehearsal.World

/-! What is done to a store in memory behind the backs of those who use it. -/
namespace Cutover.Rehearsal

inductive Upkeep where
  | put (record : Interactive)
  | remove (id : Int64)
  | get (id : Int64)
  | all
  | size
  /-- From now on each request takes some time. -/
  | latency (d : Duration)
  | failing (on : Bool)
  /-- How many requests were served. -/
  | served
  | name

inductive Finding where
  | nothing
  | record (found : Option Interactive)
  | records (found : List Interactive)
  | numbers (l : List Nat)
  | name (text : String)

namespace Upkeep

def apply (s : Site) : Upkeep → Finding × Site
  | .put record => (.nothing, { s with table := s.table.put record })
  | .remove id => (.record (s.table.get? id), { s with table := s.table.erase id })
  | .get id => (.record (s.table.get? id), s)
  | .all => (.records s.table.rows, s)
  | .size => (.numbers [s.table.rows.length, if s.table.rows.isEmpty then 1 else 0], s)
  | .latency d => (.nothing, { s with latency := d.millis % 0x10000000000000000 })
  | .failing on => (.nothing, { s with failing := on })
  | .served => (.numbers [s.reads, s.writes], s)
  | .name => (.name s.name, s)

def perform (side : Side) (u : Upkeep) : Play X Finding := Script.act fun w =>
  let (found, s) := u.apply (w.site side)
  (found, w.setSite side s)

end Upkeep
end Cutover.Rehearsal
