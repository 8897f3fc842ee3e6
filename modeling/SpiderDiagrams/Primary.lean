import SpiderDiagrams.Construction
import SpiderDiagrams.SortedMap

namespace SpiderDiagrams

structure Primary where
  habitats : SortedMap String Region
  shaded : Region
deriving DecidableEq, Hashable, Inhabited

/-- A name can be written between quotes. -/
def IsName (s : String) : Prop := s ≠ "" ∧ '"' ∉ s.toList ∧ '\\' ∉ s.toList

instance (s : String) : Decidable (IsName s) := inferInstanceAs (Decidable (_ ∧ _))

/-- The first item of a list that stands in it a second time. -/
def firstRepeated {α : Type} [DecidableEq α] (l : List α) : Option α :=
  go [] l
where
  go (seen : List α) : List α → Option α
    | [] => none
    | a :: l => if a ∈ seen then some a else go (a :: seen) l

namespace Primary

def spiders (p : Primary) : NameSet := p.habitats.keys

def habitat? (p : Primary) (spider : String) : Option Region := p.habitats.get? spider

def zones (p : Primary) : List Zone := p.habitats.values.flatMap (·.toList) ++ p.shaded.toList

def contours (p : Primary) : NameSet :=
  .ofList (p.zones.flatMap fun z => z.inside.toList ++ z.outside.toList)

/-- Without spiders and shading a diagram says nothing. -/
def isTrivial (p : Primary) : Bool := p.spiders.isEmpty && p.shaded.isEmpty

def nameFault? (s : String) : Option ConstructionError :=
  if IsName s then none else some (.invalidName s)

def spiderFault? (p : Primary) (spider : String) : Option ConstructionError :=
  nameFault? spider <|>
    match p.habitat? spider with
    | none => some (.missingHabitat spider)
    | some region => if region.isEmpty then some (.emptyHabitat spider) else none

def zoneFault? (contours : NameSet) (z : Zone) : Option ConstructionError :=
  if !z.overlapping.isEmpty then some (.overlappingContours z)
  else if z.contours.size ≠ contours.size then some (.zoneNotFullySpecified z contours)
  else none

def contourFault? (p : Primary) : Option ConstructionError :=
  p.contours.toList.findSome? nameFault? <|> p.zones.findSome? (zoneFault? p.contours)

/-- The first thing wrong with a diagram: spiders in order, then contours, then zones. -/
def fault? (p : Primary) : Option ConstructionError :=
  p.spiders.toList.findSome? p.spiderFault? <|> p.contourFault?

def Valid (p : Primary) : Prop := p.fault? = none

instance (p : Primary) : Decidable p.Valid := inferInstanceAs (Decidable (_ = _))

/-- Builds a diagram from the names of its spiders, a habitat for each, and the shaded zones.
Repeated habitats are found before anything else; a habitat of a spider that is not named is found
after the faults of those that are. -/
def ofParts (spiders : List String) (habitats : List (String × List Zone)) (shaded : List Zone) :
    Except ConstructionError Primary :=
  let named := SortedSet.ofList spiders
  let p : Primary := ⟨.ofList (habitats.map fun h => (h.1, .ofList h.2)), .ofList shaded⟩
  let fault := (firstRepeated (habitats.map (·.1))).map .duplicateHabitat
    <|> named.toList.findSome? p.spiderFault?
    <|> (p.spiders.toList.find? (· ∉ named)).map .unknownSpider
    <|> p.contourFault?
  match fault with
  | some e => .error e
  | none => .ok p

def withHabitat (p : Primary) (spider : String) (region : Region) :
    Except ConstructionError Primary :=
  if spider ∈ p.spiders then
    let q : Primary := { p with habitats := p.habitats.insert spider region }
    match q.fault? with
    | some e => .error e
    | none => .ok q
  else .error (.unknownSpider spider)

def tokens (p : Primary) : List Token :=
  [.word .primaryDiagram, .mark .openBrace, .word .spiders, .mark .equals] ++ Token.names p.spiders
    ++ [.mark .comma, .word .habitats, .mark .equals]
    ++ Token.bracketed (p.habitats.entries.map fun h =>
      [.mark .openParen, .quoted h.1, .mark .comma] ++ h.2.tokens ++ [.mark .closeParen])
    ++ [.mark .comma, .word .shadedZones, .mark .equals] ++ p.shaded.tokens ++ [.mark .closeBrace]

end Primary

end SpiderDiagrams
