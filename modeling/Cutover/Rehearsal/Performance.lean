import Cutover.Rehearsal.Comparison
import Cutover.Rehearsal.Consumption

/-! Rehearsals from beginning to end. -/
namespace Cutover.Rehearsal

variable {X : Type}

def Backdrop.body (b : Backdrop X) : Job → Play X Bool
  | .main => b.main
  | .pass session kind => Comparison.pass b session kind
  | .publish session kind event => Comparison.publish b session kind event
  | .consume generation => Consumption.consume b generation
  | .handle generation task event => Consumption.handle b generation task event
  | .errand number => b.errand number

def Backdrop.casting (b : Backdrop X) : Casting (World X) Job := ⟨b.body, Job.company, Job.rank⟩

/-- Enough turns for any rehearsal that ends. -/
def patience : Nat := 1000000000

/-- Plays until the rehearsal is over. -/
def Backdrop.perform (b : Backdrop X) (w : World X) : Stage (World X) Job :=
  Stage.play b.casting (·.ended) patience (Stage.opening b.casting w .main)

/-- A main job that is done once and ends the rehearsal. -/
def once (work : Play X Unit) : Play X Bool := do
  work
  Script.change fun w => { w with ended := true }
  return false

end Cutover.Rehearsal
