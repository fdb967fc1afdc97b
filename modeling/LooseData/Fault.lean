import LooseData.Config.Problem
import LooseData.Json.Failure

set_option autoImplicit false

/-! # Faults

Everything that can go wrong in a lookup, a write, a decoding or an evaluation, by cause.
`Fault.message` is the one place where faults are worded.
-/

namespace LooseData

/-- The greatest number of decimal digits that is read as, or written for, a whole number. -/
def maxNumeralDigits : Nat := 4300

/-- The cause of a failure. -/
inductive Fault where
  /-- A run of digits that are not all decimal digits. -/
  | notDecimal (text : String)
  /-- A numeral with more than `maxNumeralDigits` digits. -/
  | numeralTooLong (digits : Nat)
  /-- A whole number that would be written with more than `maxNumeralDigits` digits. -/
  | integerTooLong
  /-- A key that no mapping can hold. -/
  | unhashable
  /-- A collection that cannot be a key and says so itself. -/
  | noKey (kind : String)
  /-- A key without letter case where one is needed. -/
  | noLetterCase
  /-- Something that cannot be gone through item by item. -/
  | notIterable
  /-- An item that is not made of two parts. -/
  | notAPair
  /-- A key that is absent; `shown` is its quoted form. -/
  | missingKey (shown : String)
  /-- An entry demanded of an empty map. -/
  | emptyMap
  /-- A key that is no index of a sequence; `shown` is its quoted form. -/
  | noIndex (shown : String)
  /-- A write into a collection that cannot change. -/
  | immutable (kind : String)
  /-- An attribute name that is no text. -/
  | attributeName (kind : String)
  /-- A write to an attribute of a value that has none. -/
  | noAttributes
  /-- A write of something that is no class to the class of a value. -/
  | notAClass
  /-- A write to the table of the attributes of an object. -/
  | attributeTable
  /-- A write to an attribute of a class, a member of one, or a function. It would succeed, but is
  not followed here. -/
  | notFollowed
  /-- An item of a byte buffer that is no whole number. -/
  | notAByte
  /-- An item of a byte buffer outside 0 to 255. -/
  | byteOutOfRange
  /-- A gap in a list that is longer than any list. -/
  | gapOverflow
  /-- A gap in a list that there is no room for. -/
  | noRoom
  /-- An attribute that a world keeps for itself. -/
  | readOnlyAttribute (name : String)
  /-- An attribute that a world does not have. -/
  | missingAttribute (name : String)
  /-- A name with a leading low line, which no attribute of a world may have. -/
  | privateAttribute (name : String)
  /-- A text that is no strict JSON document. -/
  | json (failure : Json.Failure)
  /-- A byte string that is no text in its encoding. -/
  | undecodable
  /-- A value other than a text or bytes where a JSON document is expected. -/
  | notJsonText
  /-- A path segment that is no text. -/
  | notASegment
  /-- Options to choose from that are missing altogether. -/
  | noOptions (kind : String)
  /-- A value other than a number where one is expected. -/
  | notANumber
  /-- Tags nested deeper than the limit; `text` starts at the first tag too deep. -/
  | tooDeep (text : String) (limit : Int)
  /-- Something that is called and cannot be. -/
  | notCallable
  /-- A value offered as a handler that cannot be called. -/
  | handlerNotCallable (tag kind : String)
  /-- A handler offered for the empty tag. -/
  | emptyTag
  /-- A log level that is not known; `hint` says what is. -/
  | invalidLevel (shown hint : String)
  /-- A failure that a handler reports in its own words. -/
  | reported (message : String)
  /-- A handler applied to a value without the operation that it needs. -/
  | missingOperation
  /-- A handler applied to a value of the wrong type. -/
  | wrongType
  /-- A key that JSON objects cannot have. -/
  | jsonKey
  /-- A user whose home cannot be told. -/
  | homeless
  /-- A name of a file that holds a null character. -/
  | nullInName
  /-- A name of a file or directory that is too long. -/
  | nameTooLong
  /-- A configuration file that cannot be used. -/
  | configFile (path : String) (problem : Config.FileProblem)
  /-- A variable for a section of the configuration that does not hold JSON. -/
  | configVariable
  /-- Settings that are not valid. -/
  | invalidSettings (violations : List Config.Violation)
  /-- Containers nested beyond every bound, as in a container that contains itself. -/
  | bottomless
deriving DecidableEq

/-- The wording of a fault; faults that no one has worded have the empty text. -/
def Fault.message : Fault → String
  | .notDecimal text =>
    "invalid literal for int() with base 10: "
      ++ String.ofList ((Text.quoteChars text.toList).take 200)
  | .numeralTooLong digits =>
    "Exceeds the limit (" ++ toString maxNumeralDigits
      ++ " digits) for integer string conversion: value has " ++ toString digits
      ++ " digits; use sys.set_int_max_str_digits() to increase the limit"
  | .integerTooLong =>
    "Exceeds the limit (" ++ toString maxNumeralDigits
      ++ " digits) for integer string conversion;"
      ++ " use sys.set_int_max_str_digits() to increase the limit"
  | .noKey kind => "unhashable type: '" ++ kind ++ "'"
  | .missingKey shown => shown
  | .noIndex shown => "Cannot assign key " ++ shown ++ " on a sequence"
  | .immutable kind => "Cannot assign into immutable " ++ kind
  | .attributeName kind => "Attribute name must be a string, got " ++ kind
  | .readOnlyAttribute name => "'World' attribute '" ++ name ++ "' is read-only"
  | .missingAttribute name => "'World' object has no attribute '" ++ name ++ "'"
  | .privateAttribute name => name
  | .json failure => failure.message
  | .noOptions kind =>
    "check_enum requires argument \"obj\" to be a collection with keys or values of type ["
      ++ kind ++ "]"
  | .tooDeep text limit =>
    "Nested tags in " ++ Text.quote text ++ " exceed max_depth=" ++ toString limit
  | .handlerNotCallable tag kind =>
    "Handler for '" ++ tag ++ "' must be callable, got " ++ kind
  | .emptyTag => "Handler name must be a non-empty string"
  | .invalidLevel shown hint => "Invalid log level: " ++ shown ++ hint
  | .reported message => message
  | .configFile path problem => "Error in config file " ++ path ++ ": " ++ problem.message
  | _ => ""

end LooseData
