import Cutover.Log

/-! Files by name. A file that was renamed is still the same to those who have it open. -/
namespace Cutover.Rehearsal

/-- What a file holds: a text, and the records that were logged to it. -/
structure File where
  text : String
  records : List Log.Record

structure Disk where
  /-- Which of the files has which name. -/
  names : List (String × Nat)
  files : List File
  /-- The names that files can be given. -/
  room : String → Bool

namespace Disk

def empty (room : String → Bool) : Disk := ⟨[], [], room⟩

instance : Inhabited Disk := ⟨empty fun _ => false⟩

def find? (d : Disk) (name : String) : Option File := (d.names.lookup name).bind (d.files[·]?)

def modify (d : Disk) (id : Nat) (f : File → File) : Disk := { d with files := d.files.modify id f }

def create (d : Disk) (name : String) (file : File) : Disk :=
  { d with names := (name, d.files.length) :: d.names, files := d.files ++ [file] }

/-- Replaces what a file holds. -/
def write (d : Disk) (name text : String) : Disk :=
  match d.names.lookup name with
  | some id => d.modify id fun _ => ⟨text, []⟩
  | none => d.create name ⟨text, []⟩

/-- Opens a file to append to it; if it is not there it is created. -/
def append? (d : Disk) (name : String) : Option (Nat × Disk) :=
  match d.names.lookup name with
  | some id => some (id, d)
  | none => if d.room name then some (d.files.length, d.create name ⟨"", []⟩) else none

/-- Why a file cannot be opened: it is a directory, or its directory is not there. -/
def obstacle (name : String) : String :=
  if name == "/" then "Is a directory (os error 21)" else "No such file or directory (os error 2)"

def record (d : Disk) (id : Nat) (r : Log.Record) : Disk :=
  d.modify id fun f => { f with records := f.records ++ [r] }

/-- Gives a file another name, whatever had that name before. -/
def rename (d : Disk) (source destination : String) : Bool × Disk :=
  match d.names.lookup source with
  | none => (false, d)
  | some id =>
    if source == destination then (true, d)
    else if d.room destination then
      (true, { d with names := (destination, id) :: d.names.filter fun (name, _) =>
        name != source && name != destination })
    else (false, d)

end Disk
end Cutover.Rehearsal
