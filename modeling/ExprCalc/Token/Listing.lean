import ExprCalc.Failure

namespace ExprCalc

namespace ScanItem

def token? : ScanItem → Option Token
  | .ok t => some t
  | .error _ => none

def error? : ScanItem → Option ScanError
  | .ok _ => none
  | .error e => some e

def text : ScanItem → Text
  | .ok t => t.text
  | .error e => utf8 "error: " ++ e.message

end ScanItem

namespace Text

def scanErrors (source : Text) : List ScanError :=
  source.scan.filterMap ScanItem.error?

def scanFailure (source : Text) : Option Failure :=
  Failure.joinAll (source.scanErrors.map .scan)

def tokens (source : Text) : List Token :=
  source.scan.filterMap ScanItem.token?

def listing (source : Text) : Text :=
  source.scan.flatMap fun item => line (ScanItem.text item)

end Text

end ExprCalc
