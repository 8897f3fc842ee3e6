import SpiderDiagrams.SortedSet

namespace SpiderDiagrams

open Std

abbrev NameSet := SortedSet String

/-- The part of the plane inside the contours of one set and outside those of another. -/
structure Zone where
  inside : NameSet
  outside : NameSet
deriving DecidableEq, Hashable, Inhabited

namespace Zone

def ofLists (inside outside : List String) : Zone := ⟨.ofList inside, .ofList outside⟩

def contours (z : Zone) : NameSet := z.inside.union z.outside

def overlapping (z : Zone) : NameSet := z.inside.inter z.outside

instance : Ord Zone := ⟨compareLex (compareOn inside) (compareOn outside)⟩

instance : TransOrd Zone :=
  inferInstanceAs (TransCmp (compareLex (compareOn inside) (compareOn outside)))

instance : LawfulEqOrd Zone where
  compare_self {z} := by
    have hi : compare z.inside z.inside = .eq := ReflCmp.compare_self
    have ho : compare z.outside z.outside = .eq := ReflCmp.compare_self
    exact Ordering.then_eq_eq.2 ⟨hi, ho⟩
  eq_of_compare {y z} h := by
    have h' : compare y.inside z.inside = .eq ∧ compare y.outside z.outside = .eq :=
      Ordering.then_eq_eq.1 h
    have hi := LawfulEqCmp.eq_of_compare h'.1
    have ho := LawfulEqCmp.eq_of_compare h'.2
    cases y; cases z; cases hi; cases ho; rfl

end Zone

abbrev Region := SortedSet Zone

end SpiderDiagrams
