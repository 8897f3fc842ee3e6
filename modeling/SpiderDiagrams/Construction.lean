import SpiderDiagrams.Operator
import SpiderDiagrams.Text.Quoted
import SpiderDiagrams.Token

namespace SpiderDiagrams

inductive ConstructionError where
  | invalidName (name : String)
  | overlappingContours (zone : Zone)
  | zoneNotFullySpecified (zone : Zone) (contours : NameSet)
  | missingHabitat (spider : String)
  | emptyHabitat (spider : String)
  | duplicateHabitat (spider : String)
  | unknownSpider (spider : String)
  | arityMismatch (operator : Operator) (found : Nat)
deriving DecidableEq

def ConstructionError.message : ConstructionError → String
  | invalidName name =>
    s!"invalid name {Text.quoted name}: names must be non-empty and contain no quotes or backslashes"
  | overlappingContours zone =>
    s!"zone {zone.text} lists {Text.quotedList zone.overlapping.toList} both as in- and out-contours"
  | zoneNotFullySpecified zone contours =>
    s!"zone {zone.text} is not fully specified over the contours {Text.quotedList contours.toList}"
  | missingHabitat spider => s!"spider {Text.quoted spider} has no habitat"
  | emptyHabitat spider => s!"spider {Text.quoted spider} has an empty habitat"
  | duplicateHabitat spider => s!"spider {Text.quoted spider} has more than one habitat"
  | unknownSpider spider => s!"habitat given for undeclared spider {Text.quoted spider}"
  | arityMismatch operator found =>
    s!"operator {operator.name} expects {operator.arity} operand(s), found {found}"

end SpiderDiagrams
