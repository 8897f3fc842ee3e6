namespace SpiderDiagrams.Text

/-- The code points at which membership changes, beginning with the first range: the members are
those from the first bound up to the second, from the third up to the fourth, and so on. -/
structure CharacterSet where
  bounds : List Nat

def CharacterSet.contains (s : CharacterSet) (c : Char) : Bool :=
  (s.bounds.takeWhile (· ≤ c.toNat)).length % 2 == 1

end SpiderDiagrams.Text
