import GuidedJourney.Value.Basic

namespace GuidedJourney

inductive ElementKind where
  | largeQuestion | textBlock | button | image | imageCard | textCard | checklistCard | toggleCard
  | animatedImage | spacer | loadingView | careCall | animatedComponents | quoteCard
  | imageCheckboxButton | checkboxButton | circularStepper | miniWidget | weekCheckinSummary
  | agentMessageCard | openQuestion | orb
  deriving DecidableEq, Repr

namespace ElementKind

def all : List ElementKind := [
  .largeQuestion, .textBlock, .button, .image, .imageCard, .textCard, .checklistCard, .toggleCard,
  .animatedImage, .spacer, .loadingView, .careCall, .animatedComponents, .quoteCard,
  .imageCheckboxButton, .checkboxButton, .circularStepper, .miniWidget, .weekCheckinSummary,
  .agentMessageCard, .openQuestion, .orb]

def tag : ElementKind → String
  | .largeQuestion => "largeQuestion"
  | .textBlock => "textBlock"
  | .button => "button"
  | .image => "image"
  | .imageCard => "imageCard"
  | .textCard => "textCard"
  | .checklistCard => "checklistCard"
  | .toggleCard => "toggleCard"
  | .animatedImage => "animatedImage"
  | .spacer => "spacer"
  | .loadingView => "loadingView"
  | .careCall => "careCall"
  | .animatedComponents => "animatedComponents"
  | .quoteCard => "quoteCard"
  | .imageCheckboxButton => "imageCheckboxButton"
  | .checkboxButton => "checkboxButton"
  | .circularStepper => "circularStepper"
  | .miniWidget => "miniWidget"
  | .weekCheckinSummary => "weekCheckinSummary"
  | .agentMessageCard => "agentMessageCard"
  | .openQuestion => "openQuestion"
  | .orb => "orb"

def ofValue? (v : Value) : Option ElementKind :=
  v.asText?.bind fun s => all.find? (·.tag == s)

def interactiveKeys : ElementKind → List String
  | .largeQuestion => ["selectedOptionId"]
  | .openQuestion => ["answer", "text"]
  | .toggleCard => ["isToggled"]
  | .checkboxButton | .imageCheckboxButton => ["isSelected"]
  | .checklistCard => ["checkedItems"]
  | .circularStepper => ["value"]
  | _ => []

end ElementKind

inductive EventKind where
  | onStart | onLoad | onSubmit | onClose | onAppear | onDisappear | onSelected | onToggle
  | onToggleOn | onToggleOff | onAnimationComplete | custom | unknown
  deriving DecidableEq, Repr

namespace EventKind

def all : List EventKind := [
  .onStart, .onLoad, .onSubmit, .onClose, .onAppear, .onDisappear, .onSelected, .onToggle,
  .onToggleOn, .onToggleOff, .onAnimationComplete, .custom, .unknown]

def tag : EventKind → String
  | .onStart => "onStart"
  | .onLoad => "onLoad"
  | .onSubmit => "onSubmit"
  | .onClose => "onClose"
  | .onAppear => "onAppear"
  | .onDisappear => "onDisappear"
  | .onSelected => "onSelected"
  | .onToggle => "onToggle"
  | .onToggleOn => "onToggleOn"
  | .onToggleOff => "onToggleOff"
  | .onAnimationComplete => "onAnimationComplete"
  | .custom => "custom"
  | .unknown => "unknown"

def ofValue (v : Value) : EventKind :=
  if v.truthy then (v.asText?.bind fun s => all.find? (·.tag == s)).getD .unknown else .custom

end EventKind

inductive Position where
  | fixedTop | body | fixedBottom
  deriving DecidableEq, Repr

namespace Position

def tag : Position → String
  | .fixedTop => "fixed-top"
  | .body => "body"
  | .fixedBottom => "fixed-bottom"

def ofValue : Value → Position
  | .str "fixed-top" => .fixedTop
  | .str "fixed-bottom" => .fixedBottom
  | _ => .body

end Position

inductive Layout where
  | stack | grid
  deriving DecidableEq, Repr

namespace Layout

def tag : Layout → String
  | .stack => "stack"
  | .grid => "grid"

def ofValue : Value → Layout
  | .str "grid" => .grid
  | _ => .stack

end Layout

inductive Direction where
  | vertical | horizontal
  deriving DecidableEq, Repr

namespace Direction

def tag : Direction → String
  | .vertical => "vertical"
  | .horizontal => "horizontal"

def ofValue : Value → Direction
  | .str "horizontal" => .horizontal
  | _ => .vertical

end Direction

end GuidedJourney
