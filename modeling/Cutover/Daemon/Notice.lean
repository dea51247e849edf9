import Cutover.Config
import Cutover.Daemon.Options
import Cutover.Text.Quoted

/-! What the daemon says in its log, and why it gives up. Where something else is the cause, the
message stops short of what that has to say. -/
namespace Cutover.Daemon

inductive Failure where
  | logFilter
  | configNotFound (path : String)
  | configMalformed (path : String)
  | logFile
  | connect (database : Side)
  | repairs
  | eventsTable
  | bind (address : Net.Address)

def Failure.message : Failure → String
  | .logFilter => "Failed to parse " ++ Log.variableName
  | .configNotFound path => "Unable to read configuration file " ++ Quoted.text path
  | .configMalformed path => "Error parsing configuration file " ++ Quoted.text path
  | .logFile => "Failed to open the migratord log file"
  | .connect database => "Failed to connect to the " ++ database.name ++ " database"
  | .repairs => "Failed to build the fixer"
  | .eventsTable => "Failed to create the events table"
  | .bind address => "Failed to bind to " ++ address.text

inductive Notice where
  | starting
  | serving (address : Net.Address) (pattern : Pattern)
  | reloading
  | terminating
  /-- A configuration that cannot be had leaves the one before in force. -/
  | unchanged (cause : Failure)
  | consumerStuck
  | logFileStarted
  | logFileRefused (path reason : String)

namespace Notice

def level : Notice → Log.Level
  | .unchanged _ | .logFileRefused .. => .error
  | .consumerStuck => .warn
  | _ => .info

def message : Notice → String
  | .starting => "migratord version " ++ version ++ " starting."
  | .serving address pattern =>
    "Serving the control plane on " ++ address.text ++ " (" ++ pattern.name ++ ")"
  | .reloading => "Received SIGHUP; re-reading configuration & reconnecting."
  | .terminating => "Received SIGTERM; terminating."
  | .unchanged cause => cause.message
  | .consumerStuck => "Failed to shut-down the event processor"
  | .logFileStarted => "Started new log file."
  | .logFileRefused path reason => "Failed to open " ++ Quoted.text path ++ " (" ++ reason ++ ")."

def record (n : Notice) : Log.Record := ⟨n.level, n.message⟩

end Notice

/-- The target of the daemon's own records. -/
def logTarget : String := "migratord"

/-- Which records are kept; directives in the environment come before the options. -/
def filter (o : Options) (environment : CommandLine.Environment) : Except Failure Log.Filter :=
  match Log.Filter.ofText o.level ((environment.lookup Log.variableName).getD "") with
  | some f => .ok f
  | none => .error .logFilter

/-- The file that the configuration is read from. -/
def configPath (o : Options) : String := o.config.getD Config.defaultPath

/-- The configuration, given what its file holds. -/
def configure (o : Options) (content : Option String) : Except Failure Config :=
  match Config.load o.config.isSome content with
  | .ok c => .ok c
  | .error .notFound => .error (.configNotFound (configPath o))
  | .error .malformed => .error (.configMalformed (configPath o))

/-- The same in the course of a run. -/
def reconfigure (o : Options) (content : Option String) (current : Config) : Config × List Notice :=
  match configure o content with
  | .ok c => (c, [])
  | .error f => (current, [.unchanged f])

end Cutover.Daemon
