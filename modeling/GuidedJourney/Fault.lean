namespace GuidedJourney

inductive FormatFault where
  | unreadable
  | journeyNotObject
  | screensNotList
  deriving DecidableEq, Repr

def FormatFault.message : FormatFault → String
  | .unreadable => "Could not parse document"
  | .journeyNotObject => "Journey document must be an object"
  | .screensNotList => "Screens document must be a list"

inductive Fault where
  /-- A value of another kind was needed, such as a sequence or a key. -/
  | wrongKind
  /-- A sequence of pairs was needed and some member has another length. -/
  | notPairs
  /-- A text of digits that is no numeral. -/
  | badNumeral
  /-- A date that is not in the calendar, or a time that is not on the clock. -/
  | badDate
  /-- An address whose host part cannot be read. -/
  | badAddress
  /-- An integer beyond the range of 64-bit numbers. -/
  | tooLarge
  /-- An integer with more digits than are written out. -/
  | tooLong
  /-- Data that are nested more deeply than the stack has room for. -/
  | tooDeep
  /-- A field whose value does not fit its declaration. -/
  | invalidField
  | badSetting
  | badArgument
  /-- An element of markup that is closed without having been opened. -/
  | badMarkup
  | format (cause : FormatFault)
  deriving DecidableEq, Repr

end GuidedJourney
