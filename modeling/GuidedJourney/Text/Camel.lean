import GuidedJourney.Text.Blank
import GuidedJourney.Text.Capital

namespace GuidedJourney.Text

/-- What is left of the separators at the end of a text, `run` being those in reverse: the capital
form of the last of them that is no line break, as far as it ends in a letter. The first separator
never leaves anything. -/
def tailForm (run : List Char) : List Char :=
  match run.dropLast.dropWhile (· == '\n') with
  | [] => []
  | c :: _ => dropEnd (!·.isAlphanum) (capital c)

def joinWords (run : List Char) : List Char → List Char
  | [] => tailForm run
  | c :: cs =>
    if c.isAlphanum then (if run.isEmpty then c else c.toUpper) :: joinWords [] cs
    else joinWords (c :: run) cs

def camelCase (s : String) : String :=
  match joinWords [] s.toList with
  | [] => ""
  | c :: cs => String.ofList (c.toLower :: cs)

end GuidedJourney.Text
