/-! Names in rising order of code points. -/

namespace TasScript

def nameLe (a b : String) : Bool := !decide (b < a)

def sortedNames (names : List String) : List String := names.mergeSort nameLe

/-- The names of a set, each once. -/
def nameSet (names : List String) : List String := (sortedNames names).eraseDups

end TasScript
