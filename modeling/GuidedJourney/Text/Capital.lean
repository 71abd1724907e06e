namespace GuidedJourney.Text

/-- Characters outside ASCII whose capital form holds an ASCII letter. -/
def capitalForms : List (Char × String) := [
  ('\u00DF', "SS"), ('\u0131', "I"), ('\u0149', "\u02BCN"), ('\u017F', "S"), ('\u01F0', "J\u030C"),
  ('\u1E96', "H\u0331"), ('\u1E97', "T\u0308"), ('\u1E98', "W\u030A"), ('\u1E99', "Y\u030A"),
  ('\u1E9A', "A\u02BE"), ('\uFB00', "FF"), ('\uFB01', "FI"), ('\uFB02', "FL"), ('\uFB03', "FFI"),
  ('\uFB04', "FFL"), ('\uFB05', "ST"), ('\uFB06', "ST")]

def capital (c : Char) : List Char :=
  if c.toNat < 0x80 then [c.toUpper] else ((capitalForms.lookup c).map String.toList).getD [c]

end GuidedJourney.Text
