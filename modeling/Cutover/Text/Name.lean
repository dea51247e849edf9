/-! Column names. Databases match them without regard to the case of ASCII letters; every other
character has to agree exactly. -/
namespace Cutover.Name

def fold (name : String) : List Char := name.toList.map Char.toLower

def same (a b : String) : Bool := fold a == fold b

theorem same_iff (a b : String) : same a b = true ↔ fold a = fold b := by
  simp [same]

theorem same_refl (a : String) : same a a = true := by simp [same]

theorem same_symm {a b : String} (h : same a b = true) : same b a = true := by
  simp [same_iff] at *; exact h.symm

theorem same_trans {a b c : String} (h : same a b = true) (k : same b c = true) :
    same a c = true := by
  simp [same_iff] at *; exact h.trans k

end Cutover.Name
