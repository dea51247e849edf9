/-! Command lines. A command knows settings, each with a letter and a word, and has either further
commands below it or an operand. A setting is a switch, or is given a value: behind its letter, after
an equals sign or as the next argument. Settings that the arguments leave out may come from the
environment. Each setting is given once at most, and what is not known is refused. -/
namespace Cutover.CommandLine

inductive Form where
  /-- On as soon as it is mentioned. -/
  | switch
  | value (accepts : String → Bool)

/-- A switch in the environment is spelled out. -/
def Form.accepts : Form → String → Bool
  | .switch, text => text == "true" || text == "false"
  | .value accepts, text => accepts text

structure Setting where
  letter : Char
  word : String
  /-- The variable of the environment that stands in for it. -/
  fallback : Option String
  form : Form

structure Command where
  name : String
  settings : List Setting
  /-- Whether it tells its version. -/
  versioned : Bool
  /-- Whether it takes an operand; one that does cannot do without. -/
  operand : Bool
  /-- The commands below it. -/
  inner : List Command

/-- Why a command is not carried out. -/
inductive Halt where
  | help
  | version
  | wrong
  deriving DecidableEq

/-- What has been read of the arguments of a command. -/
structure Level where
  command : Command
  given : List (String × String)
  operand : Option String
  /-- A setting that has been mentioned, with its value once that has come. -/
  pending : Option (Setting × Option String)
  /-- Whether the rest is taken as it stands. -/
  literal : Bool

abbrev Environment := List (String × String)

/-- What a command line asks for. -/
structure Request where
  /-- The names of the commands, from the one at the top on. -/
  path : List String
  given : List (String × String)
  operand : Option String

namespace Request

def value? (r : Request) (word : String) : Option String := r.given.lookup word

def isOn (r : Request) (word : String) : Bool := r.value? word == some "true"

end Request

namespace Level

def start (c : Command) : Level := ⟨c, [], none, none, false⟩

def record (s : Setting) (value : String) (l : Level) : Except Halt Level :=
  if (l.given.lookup s.word).isSome || !s.form.accepts value then .error .wrong
  else .ok { l with given := l.given ++ [(s.word, value)] }

/-- A setting that has been mentioned takes effect as soon as another is, and at the end. -/
def settle (l : Level) : Except Halt Level :=
  match l.pending with
  | none => .ok l
  | some (_, none) => .error .wrong
  | some (s, some value) => record s value { l with pending := none }

/-- Whether the next argument may be the value of a setting. -/
def expectant (l : Level) : Bool := l.pending.any (·.2.isNone)

/-- A setting is mentioned, with a value attached or without. -/
def mention (s : Setting) (attached : Option String) (l : Level) : Except Halt Level := do
  let l ← l.settle
  match s.form, attached with
  | .switch, none => record s "true" l
  | .switch, some _ => .error .wrong
  | .value _, some value => record s value l
  | .value _, none => .ok { l with pending := some (s, none) }

/-- Breaks off for good, once what is pending is in order. -/
def halt (h : Halt) (l : Level) : Except Halt Level := do
  let _ ← l.settle
  .error h

/-- Reads an argument that begins with two dashes. -/
def readWord (text : List Char) (l : Level) : Except Halt Level :=
  let (name, rest) := text.span (· != '=')
  let word := String.ofList name
  match l.command.settings.find? (·.word == word), rest with
  | some s, [] => l.mention s none
  | some s, _ :: value => l.mention s (some (String.ofList value))
  | none, [] =>
    if word == "help" then l.halt .help
    else if word == "version" && l.command.versioned then l.halt .version
    else .error .wrong
  | none, _ => .error .wrong

/-- Reads the letters behind a dash. A setting with a value takes what is left of them. -/
def readLetters : List Char → Level → Except Halt Level
  | [], l => .ok l
  | c :: rest, l =>
    match l.command.settings.find? (·.letter == c) with
    | some s =>
      match s.form, rest with
      | .switch, _ => do readLetters rest (← l.mention s none)
      | .value _, [] => l.mention s none
      | .value _, '=' :: value => l.mention s (some (String.ofList value))
      | .value _, value => l.mention s (some (String.ofList value))
    | none =>
      if c == 'h' then l.halt .help
      else if c == 'V' && l.command.versioned then l.halt .version
      else .error .wrong

def readOperand (text : String) (l : Level) : Except Halt Level :=
  if l.command.operand && l.operand.isNone then do
    return { ← l.settle with operand := some text }
  else .error .wrong

/-- Reads an argument that is no command. -/
def read (text : String) (l : Level) : Except Halt Level :=
  if l.literal then l.readOperand text
  else match text.toList with
    | ['-', '-'] => .ok { l with literal := true }
    | '-' :: '-' :: rest => l.readWord rest
    | '-' :: c :: rest => l.readLetters (c :: rest)
    | _ =>
      match l.pending with
      | some (s, none) => .ok { l with pending := some (s, some text) }
      | _ => l.readOperand text

/-- Whether a command may be named at this point. -/
def commanding (l : Level) : Bool := !l.literal && !l.expectant

/-- The environment stands in for a setting that the arguments leave out. -/
def supply (environment : Environment) (l : Level) (s : Setting) : Except Halt Level :=
  match l.given.lookup s.word, s.fallback.bind (List.lookup · environment) with
  | none, some value => record s value l
  | _, _ => .ok l

def finish (environment : Environment) (l : Level) : Except Halt Level := do
  let l ← l.settle
  let l ← l.command.settings.foldlM (supply environment) l
  if l.command.operand && l.operand.isNone then .error .wrong else .ok l

end Level

namespace Command

/-- Asks for help about a command below. -/
def explain : Command → List String → Halt
  | _, [] => .help
  | c, name :: rest =>
    match c.inner.find? (·.name == name) with
    | some d => explain d rest
    | none => if name == "help" && !c.inner.isEmpty && rest.isEmpty then .help else .wrong

/-- Reads arguments, down to the command that is named last; the levels come innermost first. -/
def readAll (above : List Level) (l : Level) : List String → Except Halt (List Level)
  | [] => .ok (l :: above)
  | text :: rest =>
    if l.commanding then
      match l.command.inner.find? (·.name == text) with
      | some c => readAll (l :: above) (.start c) rest
      | none =>
        if text == "help" && !l.command.inner.isEmpty then .error (l.command.explain rest)
        else do readAll above (← l.read text) rest
    else do readAll above (← l.read text) rest

def request (levels : List Level) : Request :=
  ⟨(levels.map (·.command.name)).reverse, levels.flatMap (·.given), levels.findSome? (·.operand)⟩

/-- Reads a command line. The command that is named last must have none below it. -/
def read (c : Command) (environment : Environment) (arguments : List String) : Except Halt Request := do
  let levels ← readAll [] (.start c) arguments
  if levels.head?.any fun l => !l.command.inner.isEmpty then .error .wrong
  else return request (← levels.mapM (·.finish environment))

end Command
end Cutover.CommandLine
