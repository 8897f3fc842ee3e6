namespace SpiderDiagrams.Text

def slots (cs : List Char) : List (Option Char) :=
  cs.flatMap fun c => some c :: List.replicate (c.utf8Size - 1) none

/-- The characters in some slots, none of which may be cut. -/
def ofSlots? (ss : List (Option Char)) : Option (List Char) :=
  if slots (ss.filterMap id) = ss then some (ss.filterMap id) else none

end SpiderDiagrams.Text
