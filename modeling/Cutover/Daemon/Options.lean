import Cutover.CommandLine
import Cutover.Log

/-! The daemon's options: where its configuration is, and how and how much it logs. -/
namespace Cutover.Daemon

open CommandLine (Command)

structure Options where
  /-- The file that holds the configuration, if one is named. -/
  config : Option String
  /-- Whether the log is meant for people. -/
  plain : Bool
  level : Log.Level
  deriving DecidableEq

def commandLine : Command where
  name := "migratord"
  settings := [
    ⟨'c', "config", some "MIGRATOR_CONFIG", .value (· != "")⟩,
    ⟨'D', "debug", some "MIGRATOR_DEBUG", .switch⟩,
    ⟨'p', "plain", some "MIGRATOR_PLAIN", .switch⟩,
    ⟨'q', "quiet", some "MIGRATOR_QUIET", .switch⟩,
    ⟨'v', "verbose", some "MIGRATOR_VERBOSE", .switch⟩]
  versioned := true
  operand := false
  inner := []

def version : String := "0.1.0"

def versionText : String := "migratord " ++ version

/-- The level that is logged down to; of several wishes the most talkative one counts. -/
def levelOf (debug verbose quiet : Bool) : Log.Level :=
  if debug then .trace else if verbose then .debug else if quiet then .error else .info

def Options.ofRequest (r : CommandLine.Request) : Options :=
  ⟨r.value? "config", r.isOn "plain", levelOf (r.isOn "debug") (r.isOn "verbose") (r.isOn "quiet")⟩

end Cutover.Daemon
