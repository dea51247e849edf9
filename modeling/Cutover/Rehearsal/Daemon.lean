import Cutover.Daemon.Service
import Cutover.Rehearsal.Desk
import Cutover.Rehearsal.Disk
import Cutover.Rehearsal.Performance
import Cutover.Rehearsal.Server
import Cutover.Repair
import Cutover.Store.Sql

/-! The daemon on the stage, from its command line to its end. It builds all that its configuration
asks for and serves until it is told to read the configuration again, or to end; either way it takes
down what it built, and in the first case starts over. Beside it runs a list of steps: requests,
signals, and changes to databases and files. -/
namespace Cutover.Rehearsal.Daemon

open Cutover.Daemon

inductive Step where
  /-- There is nothing to send when the target is none. -/
  | request (r : Option Control.Request)
  | sleep (ms : Nat)
  | hangup
  | terminate
  | rows
  | queue
  | put (database : Side) (record : Interactive)
  | remove (database : Side) (id : Int64)
  | refuse (database : Side) (start : String) (on : Bool)
  | latency (database : Side) (ms : Nat)
  | down (databases : List Side)
  | configure (text : String)
  | move (source destination : String)

/-- What there is to see of a step. -/
inductive Entry where
  | reception (r : Desk.Reception)
  | unsent
  | notListening
  | time (ms : Nat)
  | flag (b : Bool)
  | tables (found : Side → Table)
  | tallies (found : Side → Option (Nat × Nat))
  | nothing

/-- What the daemon finds. -/
structure Scene where
  arguments : List String
  environment : CommandLine.Environment
  /-- The file that steps write the configuration to. -/
  configPath : String
  disk : Disk
  servers : Side → Server
  bindFails : Bool
  steps : List Step

/-- What the daemon works with, beside the world. -/
structure Premises where
  options : Options
  filter : Log.Filter
  config : Config
  disk : Disk
  /-- The file that is logged to; without one it is the standard output. -/
  logFile : Option Nat
  output : List Log.Record
  /-- Files that are to be logged to next. -/
  reopening : List String
  servers : Side → Server
  bindFails : Bool
  /-- The successive set-ups: how events travel in each, and how it repairs. -/
  buses : List EventBus
  repairers : List Repairer
  /-- How many claims on messages were made. -/
  claims : Nat
  listening : Bool
  /-- The request that was handed to the listener, and what came of it. -/
  asked : Option Control.Request
  answered : Option Desk.Reception
  hungUp : Bool
  terminated : Bool
  failure : Option Failure
  entries : List Entry

abbrev Act (α : Type) := Play Premises α

def premises : Act Premises := .look fun _ w => .done w.extra

def alter (f : Premises → Premises) : Act Unit := Script.change fun w => { w with extra := f w.extra }

def setServer (side : Side) (s : Server) (p : Premises) : Premises :=
  { p with servers := put side s p.servers }

/-- Writes to the log, if records like this are kept. -/
def log (r : Log.Record) (p : Premises) : Premises :=
  if p.filter.admits logTarget r.level then
    match p.logFile with
    | some id => { p with disk := p.disk.record id r }
    | none => { p with output := p.output ++ [r] }
  else p

def notify (n : Notice) : Act Unit := alter (log n.record)

def notifyAll : List Notice → Act Unit
  | [] => pure ()
  | n :: rest => do notify n; notifyAll rest

/-- A statement takes its time before it does anything. -/
def inquire (side : Side) (work : Server → α × Server) : Act α := do
  let latency := ((← premises).servers side).latency
  if latency ≠ 0 then Script.rest latency
  Script.act fun w =>
    let (a, s) := work (w.extra.servers side)
    (a, { w with extra := setServer side s w.extra })

def store (_ : Nat) (side : Side) (q : Cutover.Store.Request) : Act (Cutover.Store.Result q) :=
  Script.play (I := Sql.records) (fun q => inquire side (Server.answer q))
    (Cutover.Store.Sql.perform side.name q)

def ask (side : Side) (queue : LeaseQueue) (d : LeaseQueue.Asking α) : Act (Except EventError α) :=
  Script.play (I := leases) (fun q => inquire side (Server.answerLease queue.table q)) d

/-- The time by the clock of the queues, which stands still: nothing that was put off becomes due. -/
def clock : Int64 := 1

/-- Whether a set-up is the one in use. A queue in memory goes with its set-up. -/
def current (generation : Nat) (p : Premises) : Bool := generation + 1 == p.buses.length

def take (generation : Nat) : Act (Option (List UInt8 × Ticket)) := do
  let p ← premises
  match p.buses[generation]? with
  | some (.table side queue) => do
    alter fun p => { p with claims := p.claims + 1 }
    match ← ask side queue (queue.take clock (toString p.claims)) with
    | .ok (some (payload, l)) => return some (payload, .lease l)
    | _ => return none
  | _ => if current generation p then takeMessage generation else return none

def ack (generation : Nat) (t : Ticket) : Act Unit := do
  let p ← premises
  match p.buses[generation]?, t with
  | some (.table side queue), .lease l => do
    let _ ← ask side queue (queue.ack l)
  | _, t => if current generation p then ackMessage generation t else return

def nack (generation : Nat) (t : Ticket) (r : Redelivery) : Act Unit := do
  let p ← premises
  match p.buses[generation]?, t with
  | some (.table side queue), .lease l => do
    let _ ← ask side queue (queue.nack clock l r)
  | _, t => if current generation p then nackMessage generation t r else return

def publish (generation : Nat) (e : Event) : Act Bool := do
  let p ← premises
  match p.buses[generation]? with
  | some (.table side queue) => return (← ask side queue (queue.produce clock e)).isOk
  | _ => if current generation p then publishMessage generation e else return true

def consult (generation : Nat) (d : Dialogue stores α) : Act α :=
  Script.play (I := stores) (fun q => store generation q.1 q.2) d

def handle (generation _task : Nat) (e : Event) : Act Ending := do
  match (← premises).repairers[generation]? with
  | none => return .failed
  | some r => do
    let outcome ← consult generation (r.handle e)
    Script.change fun w => { w with metrics := Repair.count e.direction.other outcome w.metrics }
    return match outcome with
      | .ok _ => .succeeded
      | .error _ => .failed

/-- Puts a queue in place of the one before. -/
def install (bus : EventBus) : Act (Except Failure Unit) := do
  alter fun p => { p with buses := p.buses ++ [bus] }
  match bus with
  | .memory => do
    Script.change fun w => { w with channel := default }
    return .ok ()
  | .table side queue => return (← ask side queue queue.create).mapError fun _ => .eventsTable

/-- Builds what the configuration asks for, up to the place to listen at. -/
def build (generation : Nat) : Act (Except Failure Unit) := do
  let p ← premises
  match Side.all.find? fun side => (p.servers side).down with
  | some side => return .error (.connect side)
  | none =>
    match ← consult generation Repairer.build with
    | .error _ => return .error .repairs
    | .ok r => do
      alter fun p => { p with repairers := p.repairers ++ [r] }
      match ← install p.config.eventBus with
      | .error f => return .error f
      | .ok () => do
        Consumption.launch generation p.config.consumer
        if p.bindFails then return .error (.bind p.config.address)
        else return .ok ()

/-- The daemon in service, as the world has it. -/
def service (w : World Premises) : Service := ⟨w.extra.config, w.desk.plane, w.desk.generation⟩

def setService (s : Service) (w : World Premises) : World Premises :=
  { w with
    desk := { w.desk with plane := s.plane, generation := s.generation }
    extra := { w.extra with config := s.config } }

/-- Takes down the present set-up. -/
def retire : Act Unit := do
  alter fun p => { p with listening := false }
  let w ← Script.world
  let (s, orders) := (service w).retire
  Script.change (setService s)
  Desk.obey s.generation orders
  match ← Consumption.shutDown s.generation s.config.consumer.shutdownTimeout with
  | .ok () => pure ()
  | .error _ => notify .consumerStuck

/-- Reads the configuration again. A log that goes to a file goes on in the file now named. -/
def reload : Act Unit := do
  let w ← Script.world
  let p := w.extra
  let (s, notices) := (service w).reload p.options ((p.disk.find? (configPath p.options)).map (·.text))
  notifyAll notices
  Script.change (setService s)
  match p.logFile, s.config.logFile with
  | some _, some path => do
    alter fun p => { p with reopening := p.reopening ++ [path] }
    Script.start (.errand 1)
    notify .logFileStarted
  | _, _ => pure ()

def conclude (failure : Option Failure) : Act Bool := do
  alter fun p => { p with failure }
  Script.change fun w => { w with ended := true }
  return false

/-- The life of one set-up. -/
def live : Act Bool := do
  let s := service (← Script.world)
  match ← build s.generation with
  | .error f => conclude (some f)
  | .ok () => do
    alter fun p => { p with listening := true }
    notify (.serving s.config.address s.plane.router)
    Script.waitFor fun w => w.extra.hungUp || w.extra.terminated
    if (← premises).hungUp then do
      alter fun p => { p with hungUp := false }
      notify .reloading
      retire
      reload
      Script.change fun w => setService (service w).renew w
      return true
    else do
      notify .terminating
      retire
      conclude none

/-- The log goes on in another file; if that cannot be, it stays where it is. -/
def reopen : Act Bool := do
  alter fun p => match p.reopening with
    | [] => p
    | path :: rest =>
      let p := { p with reopening := rest }
      match p.disk.append? path with
      | some (id, disk) => { p with disk, logFile := some id }
      | none => log (Notice.logFileRefused path (Disk.obstacle path)).record p
  return false

/-- How long a request waits for someone to listen. -/
def patienceMs : Nat := 100

/-- Hands a request to the listener, and waits for the answer. -/
def submit (r : Control.Request) : Act Entry := do
  Script.waitAtMost patienceMs fun w => w.extra.listening
  if (← premises).listening then do
    alter fun p => { p with asked := some r, answered := none }
    Script.start (.errand 2)
    Script.waitFor fun w => w.extra.answered.isSome
    match (← premises).answered with
    | some reception => return .reception reception
    | none => return .notListening
  else return .notListening

/-- The listener answers the request that it was handed. -/
def respond : Act Bool := do
  match (← premises).asked with
  | some r => do
    let reception ← Desk.receive r
    alter fun p => { p with asked := none, answered := some reception }
  | none => pure ()
  return false

def onServer (side : Side) (f : Server → Server) : Act Entry := do
  alter fun p => setServer side (f (p.servers side)) p
  return .nothing

def Step.run (configPath : String) : Step → Act Entry
  | .request none => return .unsent
  | .request (some r) => submit r
  | .sleep ms => do
    Script.rest ms
    return .time (← Script.now)
  | .hangup => do
    alter fun p => { p with hungUp := true }
    return .flag true
  | .terminate => do
    alter fun p => { p with terminated := true }
    return .flag true
  | .rows => do
    let p ← premises
    return .tables fun side => (p.servers side).table
  | .queue => do
    let p ← premises
    return .tallies fun side => (p.servers side).tally
  | .put side e => onServer side fun s => { s with table := s.table.put e }
  | .remove side id => onServer side fun s => { s with table := s.table.erase id }
  | .refuse side start on => onServer side (·.setRefused start on)
  | .latency side ms => onServer side ({ · with latency := ms })
  | .down sides => do
    alter fun p => { p with servers := fun side => { p.servers side with down := sides.contains side } }
    return .nothing
  | .configure text => do
    alter fun p => { p with disk := p.disk.write configPath text }
    return .nothing
  | .move source destination => Script.act fun w =>
    let (moved, disk) := w.extra.disk.rename source destination
    (.flag moved, { w with extra := { w.extra with disk } })

/-- The steps, one after another; after the last one the daemon is told to end. -/
def perform (configPath : String) : List Step → Act Bool
  | [] => do
    alter fun p => { p with terminated := true }
    return false
  | s :: rest => do
    let e ← s.run configPath
    alter fun p => { p with entries := p.entries ++ [e] }
    perform configPath rest

def backdrop (scene : Scene) : Backdrop Premises where
  store := store
  publish := publish
  take := take
  ack := ack
  nack := nack
  handle := handle
  errand := fun
    | 0 => perform scene.configPath scene.steps
    | 1 => reopen
    | _ => respond
  main := live

/-- What the daemon has before it serves: its configuration, and a log. -/
def prepare (scene : Scene) (o : Options) : Except Failure Premises := do
  let filter ← Cutover.Daemon.filter o scene.environment
  let config ← configure o ((scene.disk.find? (configPath o)).map (·.text))
  let opened ← match config.logFile with
    | none => .ok (none, scene.disk)
    | some path =>
      match scene.disk.append? path with
      | some (id, disk) => .ok (some id, disk)
      | none => .error .logFile
  return log Notice.starting.record {
    options := o, filter, config, disk := opened.2, logFile := opened.1, output := [], reopening := []
    servers := scene.servers, bindFails := scene.bindFails, buses := [], repairers := [], claims := 0
    listening := false, asked := none, answered := none, hungUp := false, terminated := false, failure := none, entries := [] }

/-- What comes of a run. -/
structure Outcome where
  /-- The code that the process exits with. -/
  code : Nat
  failure : Option Failure
  /-- What is shown instead of a log. -/
  shown : String
  plain : Bool
  output : List Log.Record
  entries : List Entry
  servers : Side → Server
  disk : Disk

def stopped (scene : Scene) (code : Nat) (failure : Option Failure) (shown : String) : Outcome :=
  ⟨code, failure, shown, false, [], [], scene.servers, scene.disk⟩

/-- Starts the steps beside the daemon, which begins. -/
def opening (b : Backdrop Premises) (p : Premises) : Stage (World Premises) Job :=
  let s := Stage.enter b.casting .main ⟨0, setService (.start p.config) (World.empty p), [], 0, []⟩
  (Stage.enter b.casting (.errand 0) s).summon b.casting

def serve (scene : Scene) (p : Premises) : Outcome :=
  let b := backdrop scene
  let p := (Stage.play b.casting (·.ended) patience (opening b p)).world.extra
  ⟨if p.failure.isSome then 1 else 0, p.failure, "", p.options.plain, p.output, p.entries, p.servers, p.disk⟩

/-- A whole run. -/
def run (scene : Scene) : Outcome :=
  match commandLine.read scene.environment scene.arguments with
  | .error .wrong => stopped scene 2 none ""
  | .error .help => stopped scene 0 none versionText
  | .error .version => stopped scene 0 none (versionText ++ "\n")
  | .ok r =>
    match prepare scene (.ofRequest r) with
    | .error f => stopped scene 1 (some f) ""
    | .ok p => serve scene p

end Cutover.Rehearsal.Daemon
