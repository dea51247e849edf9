/-! The instruments that the library counts with. Counters add up, gauges keep the last value, and
both keep one series for each set of attributes. -/
namespace Cutover

/-- A count of something that happened. -/
inductive Counter where
  | secondaryFailures
  | consumerCompleted
  | consumerRedeliveries
  | consumerPoison
  | validatorBatches
  | validatorReadFailures
  | validatorEventsEmitted
  | validatorPublishFailures
  | fixerUpserts
  | fixerDeletes
  | fixerFailures
  | patternSwitches
  | sessionsStarted
  deriving DecidableEq

namespace Counter

def name : Counter → String
  | .secondaryFailures => "dual_write.secondary.failures"
  | .consumerCompleted => "events.consumer.completed"
  | .consumerRedeliveries => "events.consumer.redeliveries"
  | .consumerPoison => "events.consumer.poison"
  | .validatorBatches => "validator.batches"
  | .validatorReadFailures => "validator.read.failures"
  | .validatorEventsEmitted => "validator.events.emitted"
  | .validatorPublishFailures => "validator.publish.failures"
  | .fixerUpserts => "fixer.upserts"
  | .fixerDeletes => "fixer.deletes"
  | .fixerFailures => "fixer.failures"
  | .patternSwitches => "scheduler.pattern.switches"
  | .sessionsStarted => "scheduler.sessions.started"

def all : List Counter :=
  [.secondaryFailures, .consumerCompleted, .consumerRedeliveries, .consumerPoison,
    .validatorBatches, .validatorReadFailures, .validatorEventsEmitted, .validatorPublishFailures,
    .fixerUpserts, .fixerDeletes, .fixerFailures, .patternSwitches, .sessionsStarted]

end Counter

/-- How many messages are in hand. -/
def inflightGauge : String := "events.consumer.inflight"

abbrev Attributes := List (String × String)

/-- One series: an instrument's name, the attributes and the value. -/
structure Series where
  name : String
  attributes : Attributes
  value : Nat
  deriving DecidableEq

abbrev Metrics := List Series

namespace Metrics

/-- Attributes are a set: they are sorted by key, and of two with one key the first counts. -/
def insertAttribute (key value : String) : Attributes → Attributes
  | [] => [(key, value)]
  | (k, v) :: rest =>
    if key < k then (key, value) :: (k, v) :: rest
    else if key = k then (k, v) :: rest
    else (k, v) :: insertAttribute key value rest

def normalise (attributes : Attributes) : Attributes :=
  attributes.foldl (fun found (key, value) => insertAttribute key value found) []

/-- Changes one series, starting it at zero. -/
def alter (name : String) (attributes : Attributes) (f : Nat → Nat) : Metrics → Metrics
  | [] => [⟨name, attributes, f 0⟩]
  | s :: rest =>
    if s.name = name ∧ s.attributes = attributes then { s with value := f s.value } :: rest
    else s :: alter name attributes f rest

def value (name : String) (attributes : Attributes) : Metrics → Nat
  | [] => 0
  | s :: rest =>
    if s.name = name ∧ s.attributes = attributes then s.value else value name attributes rest

def add (m : Metrics) (counter : Counter) (n : Nat) (attributes : Attributes) : Metrics :=
  m.alter counter.name attributes (· + n)

/-- An instrument is looked up by name; one of the wrong sort is a mistake in the program. A sum that
does not fit a word of 64 bits starts over. -/
def addNamed (m : Metrics) (name : String) (n : Nat) (attributes : Attributes) :
    Except String Metrics :=
  if Counter.all.any (·.name == name) then
    .ok (m.alter name (normalise attributes) fun v => (v + n) % 0x10000000000000000)
  else .error (name ++ " does not name a counter")

def setNamed (m : Metrics) (name : String) (n : Nat) (attributes : Attributes) :
    Except String Metrics :=
  if name == inflightGauge then .ok (m.alter name (normalise attributes) fun _ => n)
  else .error (name ++ " does not name a gauge")

/-- One series as it is listed: its name, its attributes and its value. -/
structure Listing where
  name : String
  attributes : String
  value : Nat
  deriving DecidableEq

def Listing.before (a b : Listing) : Bool :=
  a.name < b.name || a.name == b.name && a.attributes ≤ b.attributes

/-- All series, sorted by name and then by attributes. -/
def listing (m : Metrics) : List Listing :=
  (m.map fun s => ⟨s.name, ",".intercalate (s.attributes.map fun (k, v) => k ++ "=" ++ v), s.value⟩).mergeSort
    Listing.before

def isCounter (s : Series) : Bool := s.name != inflightGauge

def counters (m : Metrics) : Metrics := m.filter isCounter

/-- A counter by the name under which it is exposed, with its labels. -/
def exposedName (s : Series) : String :=
  s.name.map (fun c => if c = '.' then '_' else c) ++ "_total\x7b" ++
    ",".intercalate (s.attributes.map fun (k, v) => k ++ "=\"" ++ v ++ "\"") ++ "\x7d"

/-- The counters as they are exposed to be collected, sorted. -/
def exposition (m : Metrics) : List (String × Nat) :=
  (m.counters.map fun s => (exposedName s, s.value)).mergeSort fun a b => a.1 ≤ b.1

/-- The number of instruments: every counter, and the gauge. -/
def instruments : Nat := Counter.all.length + 1

def describe : String := "Instruments \x7b instruments: " ++ toString instruments ++ " \x7d"

end Metrics
end Cutover
