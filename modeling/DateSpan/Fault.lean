import DateSpan.Calendar.Unit
import DateSpan.Datum.Display
import DateSpan.Expr.Failure
import DateSpan.Settings.Key

/-! Why an operation gives no value: the causes, their classes and their messages. -/

namespace DateSpan

open Calendar DateSpan.Expr

inductive DateFault
  | notInteger (typeName : String)
  | field (f : FieldFault)
  deriving DecidableEq, Repr

inductive Fault
  | syntaxAt (text : String) (mismatch : Mismatch)
  /-- A number has too many digits to be taken or shown. -/
  | longNumber
  | notText (typeName : String)
  | notARange (tree : Datum)
  | notAVersion (text : String)
  | notADuration (text : String)
  | notOneRange (text : String)
  | missingPart
  | versionType (typeName : String)
  | epochUnreachable (d : Datum)
  | epochNegative (d : Datum)
  | beforeEpoch (m : Moment)
  | invalidDate (given : List Datum) (reason : DateFault)
  | tooLarge
  | outOfCalendar (m : Moment) (amount : Int) (unit : Calendar.Unit)
  | unknownComponent (shown : String)
  | amountType (shown : String)
  | amountNotPositive
  /-- The values given are too few or too many for their places, or of another kind. -/
  | argumentMismatch
  /-- A value is of the right kind, but not one that can be taken. -/
  | unusableValue
  | durationTwice
  | durationType (typeName : String)
  | durationNames (names : List String)
  | durationAmountType (unit : Component) (d : Datum)
  | durationNegative (unit : Component)
  | anchorWithoutVersion
  | rangeTwice
  | rangeWithoutEnds
  | rangeAbsent
  | rangeReversed (lower upper : Version)
  | rangeHollow (bounds : Bounds)
  | specType (typeName : String)
  | specEmpty
  | specWithoutRanges
  | rangesType (typeName : String)
  | rangesNotIterable (typeName : String)
  | misconfigured (name : String)
  | missingKey (name : String)
  | unreadableFile (file : String)
  | fileNotTable (file typeName : String)
  | variableNotInteger (envName : String)
  | variableNotFlag (envName : String)
  | variableNotJson (envName : String)
  | unknownSetting (shown : String)
  | unknownName
  | noSuchEntry
  /-- The surroundings refuse a request. -/
  | refused
  | nestedTooDeep
  | badRecordKey (name : String)
  | nameTaken
  deriving Inhabited

/-- Classes of faults, by what a caller can do about them. -/
inductive FaultClass
  | parse
  | logic
  | type
  | configuration
  | attribute
  | overflow
  | argument
  | value
  | lookup
  | system
  | depth
  | definition
  deriving DecidableEq, Repr

def Calendar.FieldFault.message : FieldFault → String
  | .year given => "year " ++ toString given ++ " is out of range"
  | .month => "month must be in 1..12"
  | .day => "day is out of range for month"
  | .hour => "hour must be in 0..23"
  | .minute => "minute must be in 0..59"
  | .second => "second must be in 0..59"

def DateFault.message : DateFault → String
  | .notInteger typeName =>
    Text.quoted typeName ++ " object cannot be interpreted as an integer"
  | .field f => f.message

namespace Fault

def classOf : Fault → FaultClass
  | syntaxAt .. | notARange _ | notAVersion _ | notADuration _ | notOneRange _ => .parse
  | notText _ | versionType _ | amountType _ | durationTwice | durationType _
  | durationAmountType .. | anchorWithoutVersion | rangeTwice | rangeWithoutEnds | specType _
  | specWithoutRanges | rangesType _ => .type
  | epochUnreachable _ | epochNegative _ | beforeEpoch _ | invalidDate .. | outOfCalendar ..
  | unknownComponent _ | amountNotPositive | durationNames _ | durationNegative _ | rangeAbsent
  | rangeReversed .. | rangeHollow _ | specEmpty => .logic
  | misconfigured _ | missingKey _ | unreadableFile _ | fileNotTable .. | variableNotInteger _
  | variableNotFlag _ | variableNotJson _ | badRecordKey _ => .configuration
  | missingPart | unknownSetting _ | unknownName => .attribute
  | tooLarge => .overflow
  | argumentMismatch | rangesNotIterable _ => .argument
  | longNumber | unusableValue => .value
  | noSuchEntry => .lookup
  | refused => .system
  | nestedTooDeep => .depth
  | nameTaken => .definition

def flagWords : List String :=
  ["0", "1", "f", "false", "n", "no", "off", "on", "t", "true", "y", "yes"]

def message : Fault → String
  | syntaxAt text m =>
    "Syntax error in date version expression " ++ Text.quoted text ++ " at column "
      ++ toString m.place.column ++ ": Expected " ++ m.expected.text
  | longNumber => "number has too many digits"
  | notText typeName => "Expected expression string, got " ++ typeName
  | notARange tree => "Expression is not a date version range: " ++ tree.shown
  | notAVersion text => "Not a date version: " ++ Text.quoted text
  | notADuration text => "Not a date version duration: " ++ Text.quoted text
  | notOneRange text =>
    "Not a single date version range: " ++ Text.quoted text
      ++ " (use DateVersionSpec for OR'd ranges)"
  | missingPart => "no such part"
  | versionType typeName => "Invalid value type for a date version: " ++ typeName
  | epochUnreachable d => "Invalid epoch date: " ++ d.shown
  | epochNegative d => "Epoch date cannot be negative: " ++ d.shown
  | beforeEpoch m => "Epoch date cannot be negative: " ++ m.text
  | invalidDate given reason =>
    "Invalid date " ++ (Datum.tuple given).shown ++ ": " ++ reason.message
  | tooLarge => "number too large"
  | outOfCalendar m amount unit =>
    "Date version out of range: " ++ m.text ++ " " ++ Text.signed amount ++ " " ++ unit.name ++ "(s)"
  | unknownComponent shown => "Invalid component name " ++ shown
  | amountType shown => "Amount must be an integer, got " ++ shown
  | amountNotPositive => "Amount must be greater than zero."
  | argumentMismatch => "values do not fit their places"
  | unusableValue => "value cannot be taken"
  | durationTwice => "Give a duration value or component keywords, not both"
  | durationType typeName => "Invalid value type for a date version duration: " ++ typeName
  | durationNames names => "Invalid duration component name(s): " ++ ", ".intercalate names
  | durationAmountType unit d =>
    "Duration component " ++ Text.quoted unit.name ++ " must be an integer, got " ++ d.shown
  | durationNegative unit =>
    "Duration component " ++ Text.quoted unit.name ++ " cannot be negative"
  | anchorWithoutVersion => "Anchor mapping has no 'version' key"
  | rangeTwice => "Give a range value or anchors, not both"
  | rangeWithoutEnds => "Range mapping needs a 'lower' or 'upper' key"
  | rangeAbsent => "Date version range cannot be empty."
  | rangeReversed lower upper =>
    "Lower bound cannot be greater than the upper bound: " ++ lower.text ++ " > " ++ upper.text
  | rangeHollow bounds =>
    "Date version range contains no versions: " ++ (bounds.lower.elim "None" Anchor.text) ++ " .. "
      ++ (bounds.upper.elim "None" Anchor.text)
  | specType typeName => "Invalid value type for a date version spec: " ++ typeName
  | specEmpty => "Date version spec cannot be empty."
  | specWithoutRanges => "Spec mapping has no 'ranges' key"
  | rangesType typeName => "Expected a list of ranges, got " ++ typeName
  | rangesNotIterable typeName => Text.quoted typeName ++ " object is not iterable"
  | misconfigured name => "Misconfigured setting '" ++ name ++ "'"
  | missingKey name => "Required key is missing: " ++ Text.quoted name
  | unreadableFile file => "Error loading configuration from " ++ file
  | fileNotTable file typeName =>
    "Error loading configuration from " ++ file ++ ": Expected dict, got " ++ typeName
  | variableNotInteger envName => "Expected " ++ envName ++ " to be an integer"
  | variableNotFlag envName =>
    "Expected $" ++ envName ++ " to be one of: " ++ ", ".intercalate flagWords
  | variableNotJson envName => "Expected $" ++ envName ++ " to be JSON-encoded string."
  | unknownSetting shown => "no such setting: " ++ shown
  | unknownName => "no such name"
  | noSuchEntry => "no such entry"
  | refused => "request refused"
  | nestedTooDeep => "data nested too deep"
  | badRecordKey name => "bad " ++ name
  | nameTaken => "name already defined"

end Fault

end DateSpan
