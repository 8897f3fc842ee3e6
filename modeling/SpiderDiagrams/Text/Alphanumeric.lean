import SpiderDiagrams.Text.Alphabetic
import SpiderDiagrams.Text.Numeric

namespace SpiderDiagrams.Text

def isAlphanumeric (c : Char) : Bool := alphabetic.contains c || numeric.contains c

end SpiderDiagrams.Text
